import Mathlib.Data.List.Forall2
import TabletopDice.Engine
import TabletopDice.Proofs.Grammar.Printing
import TabletopDice.Proofs.Rolling.Throws

/-!
# Rolling term by term

A formula is rolled one term after the other, and no term sees what came of another
(`roll_eq_mapM`). So each outcome is one that its term can have by itself: `roll_outcomes`. The
first term of a well-formed formula is a throw, so rolling one always draws: `roll_draws_some`.
-/

namespace TabletopDice

open Roll

variable {α β : Type} {F : List UInt16} {U : List UnitDraw}

theorem Roll.draws_mapM {f : α → Roll β} {l : List α} {out : List β}
    (h : Draws (l.mapM f) F U out) : List.Forall₂ (fun a b => ∃ F U, Draws (f a) F U b) l out := by
  induction l generalizing F U out with
  | nil =>
    rw [List.mapM_nil] at h
    obtain ⟨-, -, rfl⟩ := draws_done_iff.mp h
    exact .nil
  | cons a l ih =>
    rw [List.mapM_cons] at h
    obtain ⟨b, F₁, F₂, U₁, U₂, rfl, rfl, first, h⟩ := draws_bind_iff.mp h
    obtain ⟨bs, F₃, F₄, U₃, U₄, rfl, rfl, others, h⟩ := draws_bind_iff.mp h
    obtain ⟨-, -, rfl⟩ := draws_done_iff.mp h
    exact .cons ⟨F₁, U₁, first⟩ (ih others)

namespace Engine

variable {e : Engine}

theorem evaluate_of_ok (e : Engine) {raw : String} {f : Formula} (h : Formula.parse raw = .ok f) :
    e.evaluate raw = .ok (e.roll f) := by
  rw [evaluate, h]
  rfl

theorem evaluate_of_error (e : Engine) {raw : String} {why : Formula.Rejection}
    (h : Formula.parse raw = .error why) : e.evaluate raw = .error why := by
  rw [evaluate, h]
  rfl

def rollSigned (e : Engine) (t : SignedTerm) : Roll TermOutcome :=
  return ⟨t.sign, ← e.rollTerm t.term⟩

theorem rollTerms_eq_mapM (e : Engine) (terms : List SignedTerm) (done : List TermOutcome) :
    e.rollTerms terms done = do
      let outcomes ← terms.mapM e.rollSigned
      return outcomes.reverse ++ done := by
  induction terms generalizing done with
  | nil => rfl
  | cons t terms ih => simp [rollTerms, rollSigned, List.mapM_cons, ih]

theorem roll_eq_mapM (e : Engine) (f : Formula) :
    e.roll f = do
      let outcomes ← f.terms.mapM e.rollSigned
      return .ofTerms f outcomes := by
  simp [roll, rollTerms_eq_mapM]

theorem rollSigned_draws {t : SignedTerm} {o : TermOutcome} (h : Draws (e.rollSigned t) F U o) :
    o.sign = t.sign ∧ Draws (e.rollTerm t.term) F U o.outcome := by
  obtain ⟨outcome, drawn, rfl⟩ := draws_bind_done_iff.mp h
  exact ⟨rfl, drawn⟩

theorem roll_outcomes {f : Formula} {E : Evaluation} (h : Draws (e.roll f) F U E) :
    ∃ outcomes, E = .ofTerms f outcomes ∧
      List.Forall₂ (fun t o => o.sign = t.sign ∧ ∃ F U, Draws (e.rollTerm t.term) F U o.outcome)
        f.terms outcomes := by
  rw [roll_eq_mapM] at h
  obtain ⟨outcomes, drawn, rfl⟩ := draws_bind_done_iff.mp h
  refine ⟨outcomes, rfl, (draws_mapM drawn).imp ?_⟩
  rintro t o ⟨F, U, drawn⟩
  obtain ⟨sign, outcome⟩ := rollSigned_draws drawn
  exact ⟨sign, F, U, outcome⟩

/-! ### Draws of well-formed formulas -/

theorem rollTerm_draws_some {t : Term} {o : Outcome} (h : Draws (e.rollTerm t) F U o)
    (proper : t.Proper) (throws : ∀ value, t ≠ .flat value) : F ≠ [] ∨ U ≠ [] := by
  cases t with
  | dice d =>
    obtain ⟨throw, drawn, -⟩ := draws_bind_done_iff.mp h
    have count : 1 ≤ d.count.toNat := UInt16.le_iff_toNat_le.mp proper.1
    have length := (Dice.roll_length drawn).1
    exact .inl (List.ne_nil_of_length_pos (by omega))
  | fate n =>
    obtain ⟨throw, drawn, -⟩ := draws_bind_done_iff.mp h
    have count : 1 ≤ n.toNat := UInt16.le_iff_toNat_le.mp proper
    have length := (FateThrow.roll_draws drawn).2.1
    exact .inr (List.ne_nil_of_length_pos (by omega))
  | flat value => exact absurd rfl (throws value)

theorem roll_draws_some {f : Formula} {E : Evaluation} (h : Draws (e.roll f) F U E)
    (wellFormed : f.WellFormed) : F ≠ [] ∨ U ≠ [] := by
  rw [roll_eq_mapM, Formula.terms, List.mapM_cons] at h
  obtain ⟨outcomes, h, -⟩ := draws_bind_done_iff.mp h
  obtain ⟨first, F₁, F₂, U₁, U₂, rfl, rfl, lead, -⟩ := draws_bind_iff.mp h
  have drew := rollTerm_draws_some (rollSigned_draws lead).2
    (wellFormed.proper ⟨.plus, f.lead⟩ List.mem_cons_self) wellFormed.lead_ne_flat
  rcases drew with drew | drew
  · exact .inl fun nothing => drew (List.append_eq_nil_iff.mp nothing).1
  · exact .inr fun nothing => drew (List.append_eq_nil_iff.mp nothing).1

theorem one_le_iff_pos {n : UInt16} : 1 ≤ n ↔ 0 < n := by
  rw [UInt16.le_iff_toNat_le, UInt16.lt_iff_toNat_lt]
  rfl

theorem wellFormed_quickDie (sides : UInt16) :
    Formula.WellFormed ⟨.dice ⟨1, max sides 1, false⟩, []⟩ where
  lead_ne_flat value := by simp
  proper := by
    intro t member
    obtain rfl := List.mem_singleton.mp member
    refine ⟨UInt16.le_refl 1, ?_⟩
    change 1 ≤ if sides ≤ 1 then 1 else sides
    split
    next => exact UInt16.le_refl 1
    next more => exact UInt16.le_of_lt (UInt16.not_le.mp more)

theorem wellFormed_quickFate (e : Engine) :
    Formula.WellFormed ⟨.fate e.fateCount, []⟩ where
  lead_ne_flat value := by simp
  proper := by
    intro t member
    obtain rfl := List.mem_singleton.mp member
    exact one_le_iff_pos.mpr e.fateCount_pos

end Engine

end TabletopDice
