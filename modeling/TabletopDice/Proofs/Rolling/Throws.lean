import TabletopDice.Proofs.Rolling.Chains
import TabletopDice.Throw.Fate

/-!
# What throws draw

Dice draw the faces they list and no units, each die at least one and at most one more than its
extra rolls. Fate dice draw a unit each and no faces.
-/

namespace TabletopDice

open Roll

variable {F : List UInt16} {U : List UnitDraw} {d : Dice}

/-! ### Dice -/

namespace Dice

variable {m : UInt16} {t : DiceThrow}

theorem roll_draws (h : Draws (d.roll m) F U t) : U = [] ∧ t.dice = d ∧ t.faces = F := by
  obtain ⟨rfl, chains, -, rfl⟩ := roll_draws_iff.mp h
  exact ⟨rfl, rfl, rfl⟩

theorem roll_length (h : Draws (d.roll m) F U t) :
    d.count.toNat ≤ F.length ∧ F.length ≤ d.count.toNat * (m.toNat + 1) := by
  obtain ⟨-, chains, divides, -⟩ := roll_draws_iff.mp h
  exact divides.length_faces

end Dice

/-! ### Fate dice -/

namespace FateThrow

theorem rollMany_draws_iff {n : Nat} {dice out : List FateDie} :
    Draws (rollMany n dice) F U out ↔
      F = [] ∧ U.length = n ∧ out = (U.map FateDie.ofUnit).reverse ++ dice := by
  induction n generalizing dice U with
  | zero =>
    rw [rollMany]
    refine draws_done_iff.trans ?_
    rw [List.length_eq_zero_iff]
    apply and_congr_right
    intro _
    apply and_congr_right
    rintro rfl
    rfl
  | succ n ih =>
    rw [rollMany, draws_oneUnit_bind_iff]
    constructor
    · intro ⟨u, U', drew, after⟩
      obtain ⟨rfl, rfl, rfl⟩ := ih.mp after
      subst drew
      exact ⟨rfl, rfl, by simp⟩
    · intro ⟨noFaces, length, same⟩
      obtain ⟨u, U', rfl⟩ := List.exists_cons_of_length_eq_add_one length
      refine ⟨u, U', rfl, ih.mpr ⟨noFaces, Nat.succ.inj length, ?_⟩⟩
      rw [same, List.map_cons, List.reverse_cons, List.append_assoc]
      rfl

theorem roll_draws_iff {count : UInt16} {t : FateThrow} :
    Draws (roll count) F U t ↔
      F = [] ∧ U.length = count.toNat ∧ t = ⟨U.map FateDie.ofUnit⟩ := by
  unfold roll
  refine draws_bind_done_iff.trans ?_
  constructor
  · intro ⟨dice, drawn, same⟩
    obtain ⟨rfl, length, rfl⟩ := rollMany_draws_iff.mp drawn
    exact ⟨rfl, length, by simpa using same⟩
  · intro ⟨noFaces, length, same⟩
    exact ⟨_, rollMany_draws_iff.mpr ⟨noFaces, length, rfl⟩, by simpa using same⟩

theorem roll_draws {count : UInt16} {t : FateThrow} (h : Draws (roll count) F U t) :
    F = [] ∧ U.length = count.toNat ∧ t.dice = U.map FateDie.ofUnit := by
  obtain ⟨rfl, length, rfl⟩ := roll_draws_iff.mp h
  exact ⟨rfl, length, rfl⟩

end FateThrow

end TabletopDice
