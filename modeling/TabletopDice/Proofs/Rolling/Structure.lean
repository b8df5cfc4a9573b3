import TabletopDice.Proofs.Rolling.Chains

/-!
# What a throw of dice is made of

A throw lists all that was drawn for it. Exploding dice show a chain each, and the chains tell how
many extra faces there are and whether a die was cut off: `Dice.roll_structured`.
-/

namespace TabletopDice

open Roll

/-- What a roller hands out is how some roll that ends well begins, also where the roller fails. -/
theorem Roll.exists_draws_of_drawn {α σ ε : Type} [Roller σ ε] (r : Roll α) (s : σ) :
    ∃ F U a, Draws r F U a ∧ (r.drawn s).faces <+: F ∧ (r.drawn s).units <+: U := by
  induction r generalizing s with
  | done a => exact ⟨[], [], a, .done a, List.prefix_refl _, List.prefix_refl _⟩
  | die sides next ih =>
    rw [drawn]
    generalize Roller.rollDie sides s = answer
    obtain ⟨cause | face, s₁⟩ := answer
    · -- Any face will do in place of the one that is missing.
      obtain ⟨F, U, a, draws, -, -⟩ := ih 0 s₁
      exact ⟨0 :: F, U, a, .die draws, List.nil_prefix, List.nil_prefix⟩
    · obtain ⟨F, U, a, draws, faces, units⟩ := ih face s₁
      exact ⟨face :: F, U, a, .die draws, List.cons_prefix_cons.mpr ⟨rfl, faces⟩, units⟩
  | unit next ih =>
    rw [drawn]
    generalize Roller.rollUnit s = answer
    obtain ⟨cause | u, s₁⟩ := answer
    · obtain ⟨F, U, a, draws, -, -⟩ := ih ⟨0⟩ s₁
      exact ⟨F, ⟨0⟩ :: U, a, .unit draws, List.nil_prefix, List.nil_prefix⟩
    · obtain ⟨F, U, a, draws, faces, units⟩ := ih u s₁
      exact ⟨F, u :: U, a, .unit draws, faces, List.cons_prefix_cons.mpr ⟨rfl, units⟩⟩

/-! ### Highest faces -/

section Highest

variable {sides : UInt16} {extra : Nat} {chain : List UInt16} {chains : List (List UInt16)}

/-- All faces of a chain are the highest one, except for the last of a chain that was not cut off. -/
theorem Chain.count_sides (h : Chain sides extra chain) :
    chain.count sides + 1 =
      chain.length + if chain = List.replicate (extra + 1) sides then 1 else 0 := by
  cases h with
  | @ends k face _ lower =>
    have uncut : List.replicate k sides ++ [face] ≠ List.replicate (extra + 1) sides := by
      intro cut
      have member : face ∈ List.replicate (extra + 1) sides := cut ▸ by simp
      exact lower (List.eq_of_mem_replicate member)
    rw [if_neg uncut]
    simp [lower]
  | cut => rw [if_pos rfl, List.count_replicate_self, List.length_replicate]

theorem count_sides_flatten (shown : ∀ chain ∈ chains, Chain sides extra chain) :
    chains.flatten.count sides + chains.length =
      chains.flatten.length + chains.count (List.replicate (extra + 1) sides) := by
  induction chains with
  | nil => rfl
  | cons chain chains ih =>
    rw [List.forall_mem_cons] at shown
    have first := shown.1.count_sides
    have others := ih shown.2
    rw [List.flatten_cons, List.count_append, List.length_append, List.length_cons,
      List.count_cons]
    simp only [beq_iff_eq]
    omega

end Highest

namespace Dice

variable {d : Dice} {m : UInt16} {faces : List UInt16} {chains : List (List UInt16)}

theorem Chains.length_of_plain (plain : d.explode = false) (h : d.Chains m.toNat faces chains) :
    faces.length = d.count.toNat := by
  -- The limit means nothing to plain dice, so they keep to the lowest one.
  have least : d.Chains 0 faces chains := by
    refine ⟨h.count, h.joined, fun chain member => ?_⟩
    simpa [Shows, plain] using h.shown chain member
  have length := least.length_faces
  omega

/-- What a throw of `d` under the limit `m` is made of, where `drawn` was drawn for it. -/
structure Structured (d : Dice) (m : UInt16) (drawn : Predetermined) (t : DiceThrow) : Prop where
  dice : t.dice = d
  faces : t.faces = drawn.faces
  plain : d.explode = false → t.faces.length = d.count.toNat ∧ t.capped = false
  /-- Exploding dice show a chain each, and there is one way only to tell the chains apart. -/
  exploding : d.explode = true → ∃ chains : List (List UInt16),
    d.Chains m.toNat t.faces chains ∧
      (∀ others, d.Chains m.toNat t.faces others → others = chains) ∧
      (∀ chain ∈ chains, Chain d.sides m.toNat chain) ∧
      (t.capped = true ↔ List.replicate (m.toNat + 1) d.sides ∈ chains) ∧
      t.extraFaces + chains.count (List.replicate (m.toNat + 1) d.sides) = t.faces.count d.sides

theorem Chains.structured (h : d.Chains m.toNat faces chains) :
    d.Structured m ⟨faces, []⟩ ⟨d, faces, chains.any (d.cutsOff m.toNat)⟩ where
  dice := rfl
  faces := rfl
  plain plain := by
    refine ⟨h.length_of_plain plain, ?_⟩
    simp [cutsOff, plain]
  exploding explodes := by
    have shown : ∀ chain ∈ chains, Chain d.sides m.toNat chain := by
      intro chain member
      simpa [Shows, explodes] using h.shown chain member
    refine ⟨chains, h, fun others h' => h'.unique h, shown, ?_, ?_⟩
    · simp [cutsOff, explodes]
    · have counts := count_sides_flatten shown
      have least := h.length_faces.1
      rw [h.joined, h.count] at counts
      rw [DiceThrow.extraFaces]
      dsimp only
      omega

/-- However many values a roller hands out for dice, there are no more of them than the limit
allows for, and a throw that comes of them is made of them as its dice are. -/
theorem roll_structured {σ ε : Type} [Roller σ ε] (d : Dice) (m : UInt16) (s : σ) :
    ((d.roll m).drawn s).faces.length ≤ d.count.toNat * (m.toNat + 1) ∧
      ((d.roll m).drawn s).units = [] ∧
      ∀ t s', (d.roll m).run s = (.ok t, s') → d.Structured m ((d.roll m).drawn s) t := by
  refine ⟨?_, ?_, ?_⟩
  · obtain ⟨F, U, t, draws, faces, -⟩ := exists_draws_of_drawn (d.roll m) s
    obtain ⟨-, chains, divides, -⟩ := roll_draws_iff.mp draws
    exact Nat.le_trans faces.length_le divides.length_faces.2
  · obtain ⟨F, U, t, draws, -, units⟩ := exists_draws_of_drawn (d.roll m) s
    obtain ⟨rfl, -⟩ := roll_draws_iff.mp draws
    exact List.prefix_nil.mp units
  · intro t s' ran
    obtain ⟨-, chains, divides, same⟩ := roll_draws_iff.mp (draws_drawn ran)
    rw [same]
    exact ⟨rfl, rfl, divides.structured.plain, divides.structured.exploding⟩

theorem roll_structured_cut_off :
    let d : Dice := ⟨2, 6, true⟩
    let s : Predetermined := ⟨[6, 6, 3, 5], []⟩
    (d.roll 1).run s = (.ok ⟨d, [6, 6, 3], true⟩, ⟨[5], []⟩) ∧
      d.Structured 1 ⟨[6, 6, 3], []⟩ ⟨d, [6, 6, 3], true⟩ := by
  intro d s
  have ran : (d.roll 1).run s = (.ok ⟨d, [6, 6, 3], true⟩, ⟨[5], []⟩) := rfl
  exact ⟨ran, (roll_structured d 1 s).2.2 _ _ ran⟩

end Dice

end TabletopDice
