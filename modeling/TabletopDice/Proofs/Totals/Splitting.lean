import TabletopDice.Proofs.Totals.Exact
import TabletopDice.Roller.Highest

/-!
# Throws in two parts

A throw rolls the same die over and over, and nothing goes over from one die to the next
(`Dice.roll_eq_times`, `FateThrow.roll_eq_times`). So it may be cut after any number of its dice:
`throws_split`.
-/

namespace TabletopDice

open Roll

/-! ### The same roll over and over -/

namespace Roll

variable {α : Type}

def times (n : Nat) (r : Roll α) : Roll (List α) :=
  (List.replicate n r).mapM id

theorem times_zero (r : Roll α) : r.times 0 = pure [] :=
  List.mapM_nil

theorem times_succ (n : Nat) (r : Roll α) :
    r.times (n + 1) = do
      let a ← r
      let rest ← r.times n
      return a :: rest := by
  unfold times
  rw [List.replicate_succ, List.mapM_cons]
  rfl

theorem times_add (n k : Nat) (r : Roll α) :
    r.times (n + k) = do
      let first ← r.times n
      let second ← r.times k
      return first ++ second := by
  unfold times
  rw [← List.replicate_append_replicate, List.mapM_append]

end Roll

/-! ### Dice -/

namespace Dice

theorem rollChain_eq (sides : UInt16) (extra : Nat) (faces : List UInt16) :
    rollChain sides extra faces = do
      let out ← rollChain sides extra []
      return (out.1 ++ faces, out.2) := by
  induction extra generalizing faces with
  | zero =>
    rw [rollChain_zero, rollChain_zero]
    rfl
  | succ extra ih =>
    rw [rollChain, rollChain, bind_assoc]
    congr 1
    funext face
    by_cases highest : face = sides
    · rw [if_pos highest, if_pos highest]
      show rollChain sides extra (face :: faces) = rollChain sides extra [face] >>= _
      rw [ih (face :: faces), ih [face]]
      simp
    · rw [if_neg highest, if_neg highest]
      rfl

theorem rollOne_eq (d : Dice) (extra : Nat) (faces : List UInt16) :
    d.rollOne extra faces = do
      let out ← d.rollOne extra []
      return (out.1 ++ faces, out.2) := by
  unfold rollOne
  cases d.explode with
  | true => exact rollChain_eq d.sides extra faces
  | false => rfl

theorem rollMany_eq_times (d : Dice) (extra n : Nat) (faces : List UInt16) (capped : Bool) :
    d.rollMany extra n faces capped = do
      let shown ← (d.rollOne extra []).times n
      return ((shown.flatMap (·.1.reverse)).reverse ++ faces, capped || shown.any (·.2)) := by
  induction n generalizing faces capped with
  | zero => simp [rollMany, times_zero]
  | succ n ih =>
    rw [rollMany, rollOne_eq, times_succ]
    simp [ih, Bool.or_assoc]

theorem roll_eq_times (d : Dice) (m : UInt16) :
    d.roll m = do
      let shown ← (d.rollOne m.toNat []).times d.count.toNat
      return ⟨d, shown.flatMap (·.1.reverse), shown.any (·.2)⟩ := by
  unfold roll
  rw [rollMany_eq_times]
  simp

end Dice

/-! ### Fate dice -/

namespace FateThrow

theorem rollMany_eq_times (n : Nat) (dice : List FateDie) :
    rollMany n dice = do
      let units ← oneUnit.times n
      return (units.map FateDie.ofUnit).reverse ++ dice := by
  induction n generalizing dice with
  | zero => rfl
  | succ n ih =>
    rw [rollMany, times_succ]
    simp [ih]

theorem roll_eq_times (count : UInt16) :
    roll count = do
      let units ← oneUnit.times count.toNat
      return ⟨units.map FateDie.ofUnit⟩ := by
  unfold roll
  rw [rollMany_eq_times]
  simp

end FateThrow

/-! ### Two throws as one -/

section Joining

variable {a b : UInt16} {F F' : List UInt16} {U U' : List UnitDraw}

/-- Two throws of one kind of dice, taken as one throw of all of the dice. -/
def DiceThrow.join (A B : DiceThrow) : DiceThrow where
  dice := { A.dice with count := A.dice.count + B.dice.count }
  faces := A.faces ++ B.faces
  capped := A.capped || B.capped

def FateThrow.join (A B : FateThrow) : FateThrow where
  dice := A.dice ++ B.dice

theorem toNat_add_of_fits (fits : a.toNat + b.toNat ≤ 65535) :
    (a + b).toNat = a.toNat + b.toNat := by
  rw [UInt16.toNat_add]
  omega

theorem Dice.roll_add (fits : a.toNat + b.toNat ≤ 65535) (sides : UInt16) (explode : Bool)
    (m : UInt16) :
    Dice.roll ⟨a + b, sides, explode⟩ m = do
      let A ← Dice.roll ⟨a, sides, explode⟩ m
      let B ← Dice.roll ⟨b, sides, explode⟩ m
      return A.join B := by
  rw [roll_eq_times, roll_eq_times, roll_eq_times, toNat_add_of_fits fits, times_add]
  simp [DiceThrow.join, Dice.rollOne]

theorem FateThrow.roll_add (fits : a.toNat + b.toNat ≤ 65535) :
    roll (a + b) = do
      let A ← roll a
      let B ← roll b
      return A.join B := by
  rw [roll_eq_times, roll_eq_times, roll_eq_times, toNat_add_of_fits fits, times_add]
  simp [FateThrow.join]

theorem Roll.draws_join {α : Type} {first second : Roll α} {A B : α} (join : α → α → α)
    (hA : Draws first F U A) (hB : Draws second F' U' B) :
    Draws (do let A ← first; let B ← second; return join A B) (F ++ F') (U ++ U') (join A B) := by
  apply draws_bind_iff.mpr
  refine ⟨A, F, F', U, U', rfl, rfl, hA, ?_⟩
  exact draws_bind_done_iff.mpr ⟨B, hB, rfl⟩

theorem DiceThrow.total_join {sides : UInt16} {explode : Bool} {m : UInt16} {A B : DiceThrow}
    (fits : a.toNat + b.toNat ≤ 65535) (hA : Draws (Dice.roll ⟨a, sides, explode⟩ m) F U A)
    (hB : Draws (Dice.roll ⟨b, sides, explode⟩ m) F' U' B) :
    (A.join B).total.toInt = A.total.toInt + B.total.toInt := by
  -- All of the dice together are still few enough for their sum to be exact.
  have both := draws_join DiceThrow.join hA hB
  rw [← Dice.roll_add fits] at both
  rw [total_toInt (Dice.length_faces_le both), total_toInt (Dice.length_faces_le hA),
    total_toInt (Dice.length_faces_le hB)]
  exact faceSum_append A.faces B.faces

theorem FateThrow.total_join {A B : FateThrow} (fits : a.toNat + b.toNat ≤ 65535)
    (hA : Draws (roll a) F U A) (hB : Draws (roll b) F' U' B) :
    (A.join B).total.toInt = A.total.toInt + B.total.toInt := by
  have both := draws_join FateThrow.join hA hB
  rw [← FateThrow.roll_add fits] at both
  rw [total_toInt (length_dice_le both), total_toInt (length_dice_le hA),
    total_toInt (length_dice_le hB)]
  exact fateSum_append A.dice B.dice

end Joining

/-! ### Runs in two parts -/

section Runs

variable {α σ ε : Type} [Roller σ ε] {s : σ}

/-- On the roller `s`, `whole` goes as `first`, and then as `second` on the roller after it. It comes
to what these come to, joined, with the sum of their totals, and it fails as the one that fails. -/
structure Roll.Splits (whole first second : Roll α) (join : α → α → α) (total : α → Score) (s : σ) :
    Prop where
  ok : ∀ t s', whole.run s = (.ok t, s') ↔
    ∃ A s₁ B, first.run s = (.ok A, s₁) ∧ second.run s₁ = (.ok B, s') ∧ t = join A B ∧
      (total t).toInt = (total A).toInt + (total B).toInt
  error : ∀ cause s', whole.run s = (.error cause, s') ↔
    first.run s = (.error cause, s') ∨
      ∃ A s₁, first.run s = (.ok A, s₁) ∧ second.run s₁ = (.error cause, s')

theorem Roll.splits_of_eq {whole first second : Roll α} {join : α → α → α} {total : α → Score}
    (same : whole = do let A ← first; let B ← second; return join A B)
    (sums : ∀ {F F' U U' A B}, Draws first F U A → Draws second F' U' B →
      (total (join A B)).toInt = (total A).toInt + (total B).toInt) :
    whole.Splits first second join total s where
  ok t s' := by
    rw [same, run_bind_ok_iff]
    apply exists₂_congr
    intro A s₁
    constructor
    · intro ⟨ranA, ran⟩
      obtain ⟨B, ranB, rfl⟩ := run_bind_done_iff.mp ran
      exact ⟨B, ranA, ranB, rfl, sums (draws_drawn ranA) (draws_drawn ranB)⟩
    · intro ⟨B, ranA, ranB, joined, _⟩
      exact ⟨ranA, run_bind_done_iff.mpr ⟨B, ranB, joined⟩⟩
  error cause s' := by
    rw [same, run_bind_error_iff]
    apply or_congr_right
    apply exists₂_congr
    intro A s₁
    apply and_congr_right
    intro _
    exact run_bind_done_error_iff

/-- `a + b` dice of one kind are thrown as `a` of them and then `b` of them, as long as there are no
more than can be counted, and so are fate dice. -/
theorem throws_split {a b : UInt16} (fits : a.toNat + b.toNat ≤ 65535) (sides : UInt16)
    (explode : Bool) (m : UInt16) (s : σ) :
    (Dice.roll ⟨a + b, sides, explode⟩ m).Splits (Dice.roll ⟨a, sides, explode⟩ m)
        (Dice.roll ⟨b, sides, explode⟩ m) DiceThrow.join DiceThrow.total s ∧
      (FateThrow.roll (a + b)).Splits (FateThrow.roll a) (FateThrow.roll b) FateThrow.join
        FateThrow.total s := by
  refine ⟨?_, ?_⟩
  · apply splits_of_eq (Dice.roll_add fits sides explode m)
    intro F F' U U' A B hA hB
    exact DiceThrow.total_join fits hA hB
  · apply splits_of_eq (FateThrow.roll_add fits)
    intro F F' U U' A B hA hB
    exact FateThrow.total_join fits hA hB

theorem throws_split_cut_off :
    let s : Predetermined := ⟨[6, 6, 3, 6, 1, 4], [⟨0⟩, ⟨0⟩, Highest.highUnit]⟩
    (2 : UInt16).toNat + (1 : UInt16).toNat ≤ 65535 ∧
      (∃ A s₁ B, (Dice.roll ⟨2, 6, true⟩ 1).run s = (.ok A, s₁) ∧
        (Dice.roll ⟨1, 6, true⟩ 1).run s₁ = (.ok B, ⟨[4], s.units⟩) ∧
        ⟨⟨3, 6, true⟩, [6, 6, 3, 6, 1], true⟩ = A.join B ∧
        (22 : Score).toInt = A.total.toInt + B.total.toInt) ∧
      ∃ A s₁ B, (FateThrow.roll 2).run s = (.ok A, s₁) ∧
        (FateThrow.roll 1).run s₁ = (.ok B, ⟨s.faces, []⟩) ∧
        ⟨[.minus, .minus, .plus]⟩ = A.join B ∧
        (-1 : Score).toInt = A.total.toInt + B.total.toInt := by
  intro s
  have fits : (2 : UInt16).toNat + (1 : UInt16).toNat ≤ 65535 := by decide
  obtain ⟨dice, fate⟩ := throws_split fits 6 true 1 s
  have thrown : (Dice.roll ⟨3, 6, true⟩ 1).run s =
      (.ok ⟨⟨3, 6, true⟩, [6, 6, 3, 6, 1], true⟩, ⟨[4], s.units⟩) := rfl
  have minus : FateDie.ofUnit ⟨0⟩ = .minus := by decide
  have plus : FateDie.ofUnit Highest.highUnit = .plus := by decide
  have fateThrown : (FateThrow.roll 3).run s =
      (.ok ⟨[.minus, .minus, .plus]⟩, ⟨s.faces, []⟩) := by
    rw [← minus, ← plus]
    rfl
  exact ⟨fits, (dice.ok _ _).mp thrown, (fate.ok _ _).mp fateThrown⟩

end Runs

end TabletopDice
