import Mathlib.Data.Nat.Find
import TabletopDice.Proofs.Rolling.Fair
import TabletopDice.Proofs.Rolling.Structure
import TabletopDice.Roller.Seeded

/-!
# Seeded rolls come to an end

A seeded roller passes over words until one is accepted. Its counter gets to every number, so that
it does not go on for ever, and the word that is accepted gives a face of the die:
`Seeded.rolls_in_range`.
-/

namespace TabletopDice.Seeded

open Roll

variable {α : Type} {pick? : UInt64 → Option α} {g g' : Seeded} {j k : Nat} {a : α}
  {sides face : UInt16} {word : UInt64}

/-! ### The words of a generator -/

def after (g : Seeded) (k : Nat) : Seeded :=
  ⟨g.counter + UInt64.ofNat k * stride⟩

def nthWord (g : Seeded) (k : Nat) : UInt64 :=
  mix (g.after (k + 1)).counter

theorem after_add (g : Seeded) (j k : Nat) : g.after (j + k) = (g.after j).after k := by
  simp only [after, UInt64.ofNat_add, mk.injEq]
  grind

theorem after_one (g : Seeded) : g.after 1 = ⟨g.counter + stride⟩ := by
  rw [after, UInt64.ofNat_one, UInt64.one_mul]

theorem nthWord_after (g : Seeded) (j k : Nat) : (g.after j).nthWord k = g.nthWord (j + k) := by
  rw [nthWord, nthWord, ← after_add, Nat.add_assoc]

/-- The stride is odd, so the counter gets to every number. -/
theorem exists_after_eq (g : Seeded) (counter : UInt64) :
    ∃ k < UInt64.size, g.after k = ⟨counter⟩ := by
  have inverse : strideInverse * stride = 1 := by decide
  refine ⟨((counter - g.counter) * strideInverse).toNat, UInt64.toNat_lt_size _, ?_⟩
  rw [after, UInt64.ofNat_toNat, mk.injEq]
  grind

theorem exists_nthWord_eq (g : Seeded) (counter : UInt64) :
    ∃ k < UInt64.size, g.nthWord k = mix counter := by
  obtain ⟨k, few, there⟩ := exists_after_eq (g.after 1) counter
  refine ⟨k, few, ?_⟩
  rw [nthWord, Nat.add_comm, after_add, there]

/-! ### The first word that is accepted -/

/-- The first `k` words are passed over, and the one after them gives `a`. -/
structure PicksAt (pick? : UInt64 → Option α) (g : Seeded) (k : Nat) (a : α) : Prop where
  passedOver : ∀ j < k, pick? (g.nthWord j) = none
  picked : pick? (g.nthWord k) = some a

theorem PicksAt.succ (h : PicksAt pick? g (k + 1) a) : PicksAt pick? (g.after 1) k a where
  passedOver j before := by
    rw [nthWord_after, Nat.add_comm]
    exact h.passedOver (j + 1) (Nat.succ_lt_succ before)
  picked := by
    rw [nthWord_after, Nat.add_comm]
    exact h.picked

theorem firstAccepted_of_some {accepts : (pick? (mix anchor)).isSome = true}
    (h : pick? (g.nthWord 0) = some a) : firstAccepted pick? accepts g = (a, g.after 1) := by
  rw [nthWord, Nat.zero_add, after_one] at h
  rw [firstAccepted.eq_def, after_one]
  split
  next b picked =>
    rw [h] at picked
    rw [Option.some.inj picked]
  next passed =>
    rw [h] at passed
    cases passed

theorem firstAccepted_of_none {accepts : (pick? (mix anchor)).isSome = true}
    (h : pick? (g.nthWord 0) = none) :
    firstAccepted pick? accepts g = firstAccepted pick? accepts (g.after 1) := by
  rw [nthWord, Nat.zero_add, after_one] at h
  rw [firstAccepted.eq_def, after_one]
  split
  next b picked =>
    rw [h] at picked
    cases picked
  next passed => rfl

theorem firstAccepted_of_picksAt {accepts : (pick? (mix anchor)).isSome = true}
    (h : PicksAt pick? g k a) : firstAccepted pick? accepts g = (a, g.after (k + 1)) := by
  induction k generalizing g with
  | zero => exact firstAccepted_of_some h.picked
  | succ k ih =>
    rw [firstAccepted_of_none (h.passedOver 0 (Nat.succ_pos k)), ih h.succ, ← after_add,
      Nat.add_comm]

/-- Some word is accepted, so the words before it are passed over only finitely often. -/
theorem exists_picksAt (accepts : (pick? (mix anchor)).isSome = true) (g : Seeded) :
    ∃ k < UInt64.size, ∃ a, PicksAt pick? g k a := by
  obtain ⟨n, few, there⟩ := exists_nthWord_eq g anchor
  have reached : ∃ k, (pick? (g.nthWord k)).isSome = true := ⟨n, by rw [there, accepts]⟩
  have first := Nat.find_spec reached
  obtain ⟨a, picked⟩ := Option.isSome_iff_exists.mp first
  refine ⟨Nat.find reached, ?_, a, ?_, picked⟩
  · exact Nat.lt_of_le_of_lt (Nat.find_min' reached (by rw [there, accepts])) few
  · intro j before
    exact Option.not_isSome_iff_eq_none.mp (Nat.find_min reached before)

/-! ### Dice -/

theorem onDie_of_face? (h : face? sides word = some face) : OnDie sides face := by
  have size : UInt32.size = 4294967296 := rfl
  have fits := sides.toNat_lt
  unfold face? at h
  dsimp only at h
  split at h
  next passed => cases h
  next accepted =>
    have sided : 0 < sides.toNat := by
      rw [Nat.pos_iff_ne_zero]
      intro sideless
      simp [sideless, size] at accepted
    -- The product of a half word with the sides lies below the sides times 2^32.
    have below : word.toNat % UInt32.size * sides.toNat / UInt32.size < sides.toNat := by
      apply Nat.div_lt_of_lt_mul
      exact Nat.mul_lt_mul_of_pos_right (Nat.mod_lt _ (by omega)) sided
    generalize word.toNat % UInt32.size * sides.toNat / UInt32.size = block at h below
    have number : face.toNat = block + 1 := by
      rw [← Option.some.inj h, UInt16.toNat_ofNat_of_lt' (by rw [UInt16.size]; omega)]
    rw [OnDie, UInt16.le_iff_toNat_le, UInt16.le_iff_toNat_le, number, UInt16.toNat_one]
    omega

theorem rollDie_of_picksAt (sided : sides ≠ 0) (h : PicksAt (face? sides) g k face) :
    g.rollDie sides = (face, g.after (k + 1)) := by
  rw [rollDie, dif_neg sided]
  exact firstAccepted_of_picksAt h

/-- Dice with the given sides, rolled with `g` one after the other, show `faces` and leave `g'`. -/
inductive Deals (sides : UInt16) : Seeded → List UInt16 → Seeded → Prop
  | nil (g : Seeded) : Deals sides g [] g
  | cons {g g' : Seeded} {k : Nat} {face : UInt16} {faces : List UInt16}
      (picks : PicksAt (face? sides) g k face) (rest : Deals sides (g.after (k + 1)) faces g') :
      Deals sides g (face :: faces) g'

theorem Deals.onDie {faces : List UInt16} (h : Deals sides g faces g') :
    ∀ face ∈ faces, OnDie sides face := by
  induction h with
  | nil g => simp
  | cons picks _ ih => exact List.forall_mem_cons.mpr ⟨onDie_of_face? picks.picked, ih⟩

theorem deals_of_onlyDice {r : Roll α} (only : OnlyDice sides r) (sided : sides ≠ 0) (g : Seeded) :
    ∃ F a g', r.run g = (.ok a, g') ∧ Draws r F [] a ∧ Deals sides g F g' := by
  induction only generalizing g with
  | done a => exact ⟨[], a, g, rfl, .done a, .nil g⟩
  | @die next _ ih =>
    obtain ⟨k, -, face, picks⟩ := exists_picksAt (face?_anchor sided) g
    obtain ⟨F, a, g', ran, draws, deals⟩ := ih face (g.after (k + 1))
    refine ⟨face :: F, a, g', ?_, .die draws, .cons picks deals⟩
    have answer : Roller.rollDie sides g = (.ok face, g.after (k + 1)) := by
      dsimp only [Roller.rollDie]
      rw [rollDie_of_picksAt sided picks]
    rw [run, answer]
    exact ran

structure Throws (d : Dice) (m : UInt16) (g : Seeded) (t : DiceThrow) (g' : Seeded) : Prop where
  ran : (d.roll m).run g = (.ok t, g')
  deals : Deals d.sides g t.faces g'
  dice : t.dice = d
  onDie : ∀ face ∈ t.faces, OnDie d.sides face
  length : d.count.toNat ≤ t.faces.length ∧ t.faces.length ≤ d.count.toNat * (m.toNat + 1)
  plain : d.explode = false → t.faces.length = d.count.toNat

theorem exists_throws (d : Dice) (m : UInt16) (sided : d.sides ≠ 0) (g : Seeded) :
    ∃ t g', Throws d m g t g' := by
  obtain ⟨F, t, g', ran, draws, deals⟩ := deals_of_onlyDice (d.roll_onlyDice m) sided g
  obtain ⟨-, chains, divides, rfl⟩ := Dice.roll_draws_iff.mp draws
  exact ⟨_, g', ran, deals, rfl, deals.onDie, divides.length_faces, divides.length_of_plain⟩

/-- Whatever its counter is, a seeded roller comes to a face of each die, passing over fewer than
2^64 words, and so to a throw of any dice, whose faces are all faces of these dice. A die without
sides shows 0 and takes no word. -/
theorem rolls_in_range (g : Seeded) :
    (∀ sides, 1 ≤ sides → ∃ k face, k < UInt64.size ∧ PicksAt (face? sides) g k face ∧
        OnDie sides face ∧ g.rollDie sides = (face, g.after (k + 1))) ∧
      g.rollDie 0 = (0, g) ∧
      ∀ (d : Dice) (m : UInt16), 1 ≤ d.sides → ∃ t g', Throws d m g t g' := by
  have ne {sides : UInt16} (sided : 1 ≤ sides) : sides ≠ 0 := by
    rintro rfl
    exact absurd sided (by decide)
  refine ⟨?_, rfl, fun d m sided => exists_throws d m (ne sided) g⟩
  intro sides sided
  obtain ⟨k, few, face, picks⟩ := exists_picksAt (face?_anchor (ne sided)) g
  exact ⟨k, face, few, picks, onDie_of_face? picks.picked, rollDie_of_picksAt (ne sided) picks⟩

theorem rolls_in_range_passed_over :
    let g : Seeded := ⟨17474⟩
    (1 : UInt16) ≤ 64912 ∧ face? 64912 (g.nthWord 0) = none ∧
      (∃ k face, 0 < k ∧ PicksAt (face? 64912) g k face ∧ OnDie 64912 face ∧
        g.rollDie 64912 = (face, g.after (k + 1))) ∧
      ∃ t g', Throws ⟨3, 64912, true⟩ 100 g t g' := by
  intro g
  have sided : (1 : UInt16) ≤ 64912 := by decide
  have passed : face? 64912 (g.nthWord 0) = none := by decide +kernel
  obtain ⟨dice, -, throws⟩ := rolls_in_range g
  obtain ⟨k, face, -, picks, on, rolled⟩ := dice 64912 sided
  refine ⟨sided, passed, ⟨k, face, ?_, picks, on, rolled⟩, throws ⟨3, 64912, true⟩ 100 sided⟩
  rw [Nat.pos_iff_ne_zero]
  rintro rfl
  rw [picks.picked] at passed
  cases passed

end TabletopDice.Seeded
