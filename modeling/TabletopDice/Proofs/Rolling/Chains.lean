import TabletopDice.Proofs.Rolling.Draws
import TabletopDice.Throw.Dice

/-!
# The chains of exploding dice

The faces of a throw fall into a chain for each die, and in one way only (`Dice.Chains.unique`).
Dice show exactly the faces that fall so: `Dice.roll_draws_iff`.
-/

namespace TabletopDice

open Roll

/-- The faces of one exploding die. It ends at a face that is not the highest, or is cut off after
`extra` extra faces. -/
inductive Chain (sides : UInt16) (extra : Nat) : List UInt16 → Prop
  | ends {k : Nat} {face : UInt16} (few : k ≤ extra) (lower : face ≠ sides) :
      Chain sides extra (List.replicate k sides ++ [face])
  | cut : Chain sides extra (List.replicate (extra + 1) sides)

variable {sides : UInt16} {extra : Nat} {chain : List UInt16}

theorem chain_zero_iff : Chain sides 0 chain ↔ ∃ face, chain = [face] := by
  constructor
  · intro h
    cases h with
    | ends few lower =>
      obtain rfl := Nat.le_zero.mp few
      exact ⟨_, rfl⟩
    | cut => exact ⟨sides, rfl⟩
  · rintro ⟨face, rfl⟩
    by_cases highest : face = sides
    · rw [highest]
      exact .cut
    · exact .ends (Nat.le_refl 0) highest

theorem chain_succ_iff :
    Chain sides (extra + 1) chain ↔
      (∃ face, face ≠ sides ∧ chain = [face]) ∨
        ∃ more, Chain sides extra more ∧ chain = sides :: more := by
  constructor
  · intro h
    cases h with
    | @ends k face few lower =>
      cases k with
      | zero => exact .inl ⟨face, lower, rfl⟩
      | succ k => exact .inr ⟨_, .ends (Nat.le_of_succ_le_succ few) lower, rfl⟩
    | cut => exact .inr ⟨_, .cut, rfl⟩
  · rintro (⟨face, lower, rfl⟩ | ⟨more, h, rfl⟩)
    · exact .ends (Nat.zero_le _) lower
    · cases h with
      | ends few lower => exact .ends (Nat.succ_le_succ few) lower
      | cut => exact .cut

theorem Chain.length (h : Chain sides extra chain) :
    1 ≤ chain.length ∧ chain.length ≤ extra + 1 := by
  cases h with
  | ends few lower =>
    rw [List.length_append, List.length_replicate, List.length_singleton]
    omega
  | cut =>
    rw [List.length_replicate]
    omega

theorem Chain.append_inj {chain' x y : List UInt16} (h : Chain sides extra chain)
    (h' : Chain sides extra chain') (same : chain ++ x = chain' ++ y) : chain = chain' ∧ x = y := by
  induction extra generalizing chain chain' with
  | zero =>
    obtain ⟨face, rfl⟩ := chain_zero_iff.mp h
    obtain ⟨face', rfl⟩ := chain_zero_iff.mp h'
    exact List.append_inj same rfl
  | succ extra ih =>
    rcases chain_succ_iff.mp h with ⟨face, lower, rfl⟩ | ⟨more, chain, rfl⟩
    · rcases chain_succ_iff.mp h' with ⟨face', -, rfl⟩ | ⟨more', -, rfl⟩
      · exact List.append_inj same rfl
      · exact absurd (List.cons.inj same).1 lower
    · rcases chain_succ_iff.mp h' with ⟨face', lower, rfl⟩ | ⟨more', chain', rfl⟩
      · exact absurd (List.cons.inj same).1.symm lower
      · obtain ⟨rfl, rest⟩ := ih chain chain' (List.cons.inj same).2
        exact ⟨rfl, rest⟩

theorem Chain.of_length_le {n : Nat} (h : Chain sides extra chain)
    (ended : chain ≠ List.replicate (extra + 1) sides) (few : chain.length ≤ n + 1) :
    Chain sides n chain ∧ chain ≠ List.replicate (n + 1) sides := by
  cases h with
  | @ends k face _ lower =>
    rw [List.length_append, List.length_replicate, List.length_singleton] at few
    refine ⟨.ends (by omega) lower, ?_⟩
    intro cut
    have member : face ∈ List.replicate (n + 1) sides := cut ▸ by simp
    exact lower (List.eq_of_mem_replicate member)
  | cut => exact absurd rfl ended

namespace Dice

variable {d : Dice} {faces F : List UInt16} {U : List UnitDraw} {out : List UInt16 × Bool}
  {chains : List (List UInt16)}

/-- The faces that one die of `d` can show. -/
def Shows (d : Dice) (extra : Nat) (chain : List UInt16) : Prop :=
  if d.explode then Chain d.sides extra chain else ∃ face, chain = [face]

def cutsOff (d : Dice) (extra : Nat) (chain : List UInt16) : Bool :=
  d.explode && chain == List.replicate (extra + 1) d.sides

/-- `chains` are the faces of the dice of `d`, die by die. -/
structure Chains (d : Dice) (extra : Nat) (faces : List UInt16) (chains : List (List UInt16)) :
    Prop where
  count : chains.length = d.count.toNat
  joined : chains.flatten = faces
  shown : ∀ chain ∈ chains, d.Shows extra chain

theorem Shows.length (h : d.Shows extra chain) :
    1 ≤ chain.length ∧ chain.length ≤ extra + 1 := by
  unfold Shows at h
  split at h
  · exact h.length
  · obtain ⟨face, rfl⟩ := h
    simp

theorem Shows.append_inj {chain' x y : List UInt16} (h : d.Shows extra chain)
    (h' : d.Shows extra chain') (same : chain ++ x = chain' ++ y) : chain = chain' ∧ x = y := by
  unfold Shows at h h'
  split at h
  next explodes =>
    rw [if_pos explodes] at h'
    exact h.append_inj h' same
  next plain =>
    rw [if_neg plain] at h'
    obtain ⟨face, rfl⟩ := h
    obtain ⟨face', rfl⟩ := h'
    exact List.append_inj same rfl

theorem Shows.of_length_le {n : Nat} (h : d.Shows extra chain)
    (ended : d.cutsOff extra chain = false) (few : chain.length ≤ n + 1) :
    d.Shows n chain ∧ d.cutsOff n chain = false := by
  unfold Shows cutsOff at *
  cases explodes : d.explode with
  | false => simpa [explodes] using h
  | true =>
    simp only [explodes, if_true, Bool.true_and, beq_eq_false_iff_ne] at *
    exact h.of_length_le ended few

theorem cutsOff_of_length_le (few : chain.length ≤ extra) : d.cutsOff extra chain = false := by
  rw [cutsOff, Bool.and_eq_false_iff, beq_eq_false_iff_ne]
  refine .inr fun cut => ?_
  rw [cut, List.length_replicate] at few
  omega

theorem flatten_inj {chains' : List (List UInt16)} (shown : ∀ chain ∈ chains, d.Shows extra chain)
    (shown' : ∀ chain ∈ chains', d.Shows extra chain) (count : chains.length = chains'.length)
    (same : chains.flatten = chains'.flatten) : chains = chains' := by
  induction chains generalizing chains' with
  | nil => exact (List.length_eq_zero_iff.mp count.symm).symm
  | cons chain chains ih =>
    cases chains' with
    | nil => cases count
    | cons chain' chains' =>
      rw [List.forall_mem_cons] at shown shown'
      rw [List.flatten_cons, List.flatten_cons] at same
      obtain ⟨rfl, rest⟩ := shown.1.append_inj shown'.1 same
      rw [ih shown.2 shown'.2 (Nat.succ.inj count) rest]

theorem Chains.unique {chains' : List (List UInt16)} (h : d.Chains extra faces chains)
    (h' : d.Chains extra faces chains') : chains = chains' :=
  flatten_inj h.shown h'.shown (h.count.trans h'.count.symm) (h.joined.trans h'.joined.symm)

theorem length_flatten (shown : ∀ chain ∈ chains, d.Shows extra chain) :
    chains.length ≤ chains.flatten.length ∧
      chains.flatten.length ≤ chains.length * (extra + 1) := by
  induction chains with
  | nil => simp
  | cons chain chains ih =>
    rw [List.forall_mem_cons] at shown
    have first := shown.1.length
    have others := ih shown.2
    rw [List.flatten_cons, List.length_append, List.length_cons, Nat.succ_mul]
    omega

theorem Chains.length_faces (h : d.Chains extra faces chains) :
    d.count.toNat ≤ faces.length ∧ faces.length ≤ d.count.toNat * (extra + 1) := by
  rw [← h.count, ← h.joined]
  exact length_flatten h.shown

/-! ### What dice draw -/

theorem rollChain_zero (sides : UInt16) (faces : List UInt16) :
    rollChain sides 0 faces = oneDie sides >>= fun face => done (face :: faces, face == sides) := by
  rw [rollChain]
  congr 1
  funext face
  by_cases highest : face = sides
  · rw [if_pos highest, beq_iff_eq.mpr highest]
    rfl
  · rw [if_neg highest, beq_false_of_ne highest]
    rfl

theorem rollChain_draws_iff :
    Draws (rollChain sides extra faces) F U out ↔
      U = [] ∧ Chain sides extra F ∧
        out = (F.reverse ++ faces, F == List.replicate (extra + 1) sides) := by
  induction extra generalizing faces F U with
  | zero =>
    rw [rollChain_zero, draws_oneDie_bind_iff, chain_zero_iff]
    constructor
    · rintro ⟨face, F', rfl, after⟩
      obtain ⟨rfl, rfl, rfl⟩ := draws_done_iff.mp after
      exact ⟨rfl, ⟨face, rfl⟩, by simp⟩
    · rintro ⟨rfl, ⟨face, rfl⟩, rfl⟩
      exact ⟨face, [], rfl, draws_done_iff.mpr ⟨rfl, rfl, by simp⟩⟩
  | succ extra ih =>
    rw [rollChain, draws_oneDie_bind_iff, chain_succ_iff]
    constructor
    · rintro ⟨face, F', rfl, after⟩
      split at after
      next highest =>
        obtain ⟨rfl, chain, rfl⟩ := ih.mp after
        exact ⟨rfl, .inr ⟨F', chain, by rw [highest]⟩, by simp [highest, List.replicate_succ]⟩
      next lower =>
        obtain ⟨rfl, rfl, rfl⟩ := draws_done_iff.mp after
        exact ⟨rfl, .inl ⟨face, lower, rfl⟩, by simp [List.replicate_succ]⟩
    · rintro ⟨rfl, ⟨face, lower, rfl⟩ | ⟨more, chain, rfl⟩, rfl⟩
      · refine ⟨face, [], rfl, ?_⟩
        rw [if_neg lower]
        exact draws_done_iff.mpr ⟨rfl, rfl, by simp [List.replicate_succ]⟩
      · refine ⟨sides, more, rfl, ?_⟩
        rw [if_pos rfl]
        exact ih.mpr ⟨rfl, chain, by simp [List.replicate_succ]⟩

theorem rollOne_draws_iff :
    Draws (d.rollOne extra faces) F U out ↔
      U = [] ∧ d.Shows extra F ∧ out = (F.reverse ++ faces, d.cutsOff extra F) := by
  unfold rollOne Shows cutsOff
  cases d.explode with
  | true => exact rollChain_draws_iff
  | false =>
    simp only [Bool.false_eq_true, if_false, Bool.false_and]
    rw [draws_oneDie_bind_iff]
    constructor
    · rintro ⟨face, F', rfl, after⟩
      obtain ⟨rfl, rfl, rfl⟩ := draws_done_iff.mp after
      exact ⟨rfl, ⟨face, rfl⟩, rfl⟩
    · rintro ⟨rfl, ⟨face, rfl⟩, rfl⟩
      exact ⟨face, [], rfl, .done _⟩

theorem rollMany_draws_iff {n : Nat} {capped : Bool} :
    Draws (d.rollMany extra n faces capped) F U out ↔
      U = [] ∧ ∃ chains : List (List UInt16), chains.length = n ∧ chains.flatten = F ∧
        (∀ chain ∈ chains, d.Shows extra chain) ∧
          out = (F.reverse ++ faces, capped || chains.any (d.cutsOff extra)) := by
  induction n generalizing faces capped F U with
  | zero =>
    rw [rollMany]
    constructor
    · intro h
      obtain ⟨rfl, rfl, rfl⟩ := draws_done_iff.mp h
      exact ⟨rfl, [], rfl, rfl, by simp, by simp⟩
    · rintro ⟨rfl, chains, empty, rfl, -, rfl⟩
      obtain rfl := List.length_eq_zero_iff.mp empty
      exact draws_done_iff.mpr ⟨rfl, rfl, by simp⟩
  | succ n ih =>
    rw [rollMany, draws_bind_iff]
    constructor
    · rintro ⟨one, F₁, F₂, U₁, U₂, rfl, rfl, first, others⟩
      obtain ⟨rfl, shown, rfl⟩ := rollOne_draws_iff.mp first
      obtain ⟨rfl, chains, rfl, rfl, each, rfl⟩ := ih.mp others
      exact ⟨rfl, F₁ :: chains, rfl, rfl, List.forall_mem_cons.mpr ⟨shown, each⟩,
        by simp [Bool.or_assoc]⟩
    · rintro ⟨rfl, chains, count, rfl, each, rfl⟩
      cases chains with
      | nil => cases count
      | cons chain chains =>
        rw [List.forall_mem_cons] at each
        refine ⟨_, chain, chains.flatten, [], [], rfl, rfl,
          rollOne_draws_iff.mpr ⟨rfl, each.1, rfl⟩, ?_⟩
        exact ih.mpr ⟨rfl, chains, Nat.succ.inj count, rfl, each.2, by simp [Bool.or_assoc]⟩

/-- Dice come to a throw exactly by drawing its faces, which are one chain for each of them. -/
theorem roll_draws_iff {m : UInt16} {t : DiceThrow} :
    Draws (d.roll m) F U t ↔
      U = [] ∧ ∃ chains, d.Chains m.toNat F chains ∧
        t = ⟨d, F, chains.any (d.cutsOff m.toNat)⟩ := by
  rw [roll]
  constructor
  · intro h
    obtain ⟨out, drawn, rfl⟩ := draws_bind_done_iff.mp h
    obtain ⟨rfl, chains, count, rfl, each, rfl⟩ := rollMany_draws_iff.mp drawn
    exact ⟨rfl, chains, ⟨count, rfl, each⟩, by simp⟩
  · rintro ⟨rfl, chains, ⟨count, rfl, each⟩, rfl⟩
    apply draws_bind_done_iff.mpr
    refine ⟨_, rollMany_draws_iff.mpr ⟨rfl, chains, count, rfl, each, rfl⟩, ?_⟩
    simp

end Dice

end TabletopDice
