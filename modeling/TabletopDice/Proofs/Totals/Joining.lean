import TabletopDice.Proofs.Grammar.Joining
import TabletopDice.Proofs.Rolling.Replay
import TabletopDice.Proofs.Totals.Exact

/-!
# Evaluating joined formulas

A formula that was joined from two is rolled as the first and then the second: `roll_join`. What
comes of it is what came of the two, put together: `evaluate_join`.
-/

namespace TabletopDice

open Roll

variable {e : Engine} {f g : Formula} {s : Sign} {F F' : List UInt16} {U U' : List UnitDraw}
  {A B : Evaluation}

/-! ### Rolling the parts in turn -/

namespace Engine

theorem rollSigned_sign (e : Engine) (s : Sign) (t : SignedTerm) :
    e.rollSigned { t with sign := s } = do
      let o ← e.rollSigned t
      return { o with sign := s } := by
  simp [rollSigned]

theorem mapM_rollSigned_modifyHead (e : Engine) (s : Sign) (terms : List SignedTerm) :
    (terms.modifyHead ({ · with sign := s })).mapM e.rollSigned = do
      let outcomes ← terms.mapM e.rollSigned
      return outcomes.modifyHead ({ · with sign := s }) := by
  cases terms with
  | nil => rfl
  | cons t terms => simp [List.mapM_cons, rollSigned_sign]

theorem roll_join (e : Engine) (f : Formula) (s : Sign) (g : Formula) :
    e.roll (f.join s g) = do
      let A ← e.roll f
      let B ← e.roll g
      return .ofTerms (f.join s g) (A.terms ++ B.terms.modifyHead ({ · with sign := s })) := by
  simp [roll_eq_mapM, Formula.terms_join, List.mapM_append, mapM_rollSigned_modifyHead,
    Evaluation.ofTerms]

end Engine

/-! ### What comes of the whole -/

theorem any_capped_modifyHead (outcomes : List TermOutcome) (s : Sign) :
    (outcomes.modifyHead ({ · with sign := s })).any TermOutcome.capped =
      outcomes.any TermOutcome.capped := by
  cases outcomes <;> rfl

def lastLabel? (outcomes : List TermOutcome) : Option String :=
  outcomes.reverse.findSome? TermOutcome.fateLabel?

theorem lastLabel?_append (outcomes outcomes' : List TermOutcome) :
    lastLabel? (outcomes ++ outcomes') = (lastLabel? outcomes').or (lastLabel? outcomes) := by
  simp [lastLabel?, List.findSome?_append]

theorem lastLabel?_cons (o : TermOutcome) (outcomes : List TermOutcome) :
    lastLabel? (o :: outcomes) = (lastLabel? outcomes).or o.fateLabel? := by
  rw [← List.singleton_append, lastLabel?_append]
  simp [lastLabel?]

theorem lastLabel?_modifyHead (outcomes : List TermOutcome) (s : Sign) :
    lastLabel? (outcomes.modifyHead ({ · with sign := s })) = lastLabel? outcomes := by
  cases outcomes with
  | nil => rfl
  | cons o outcomes =>
    rw [List.modifyHead_cons, lastLabel?_cons, lastLabel?_cons]
    rfl

theorem SignedTerm.Yields.fateLabel?_isSome {t : SignedTerm} {o : TermOutcome} (h : t.Yields o) :
    o.fateLabel?.isSome = t.term.isFate := by
  obtain ⟨sign, term⟩ := t
  obtain ⟨sign', outcome⟩ := o
  obtain ⟨-, same⟩ := h
  cases term <;> cases outcome <;> first | rfl | exact same.elim

theorem lastLabel?_isSome {terms : List SignedTerm} {outcomes : List TermOutcome}
    (h : List.Forall₂ SignedTerm.Yields terms outcomes) :
    (lastLabel? outcomes).isSome = terms.any (·.term.isFate) := by
  induction h with
  | nil => rfl
  | cons first _ ih =>
    rw [lastLabel?_cons, Option.isSome_or, ih, List.any_cons, first.fateLabel?_isSome,
      Bool.or_comm]

theorem modifyHead_plus {outcomes : List TermOutcome}
    (h : List.Forall₂ SignedTerm.Yields g.terms outcomes) :
    outcomes.modifyHead ({ · with sign := .plus }) = outcomes := by
  unfold Formula.terms at h
  cases h with
  | cons first _ =>
    obtain ⟨sign, -⟩ := first
    change _ = Sign.plus at sign
    rw [List.modifyHead_cons, ← sign]

theorem exactTotal_append (outcomes outcomes' : List TermOutcome) :
    exactTotal (outcomes ++ outcomes') = exactTotal outcomes + exactTotal outcomes' := by
  simp [exactTotal]

/-- `E` is what evaluations `A` of `f` and `B` of `g` come to as an evaluation of both. -/
structure Evaluation.Joined (E : Evaluation) (f : Formula) (s : Sign) (g : Formula)
    (A B : Evaluation) : Prop where
  terms : E.terms = A.terms ++ B.terms.modifyHead ({ · with sign := s })
  capped : E.capped = (A.capped || B.capped)
  fateLabel : E.fateLabel = if g.hasFate then B.fateLabel else A.fateLabel
  total : s = .plus → f.terms.length + g.terms.length ≤ 32768 →
    E.total.toInt = A.total.toInt + B.total.toInt

theorem Evaluation.joined_ofTerms (hA : Draws (e.roll f) F U A) (hB : Draws (e.roll g) F' U' B) :
    (ofTerms (f.join s g) (A.terms ++ B.terms.modifyHead ({ · with sign := s }))).Joined f s g
      A B := by
  obtain ⟨lengthA, smallA⟩ := Engine.small_of_roll hA
  obtain ⟨lengthB, smallB⟩ := Engine.small_of_roll hB
  have yields := (Engine.roll_draws hB).2.yields
  obtain ⟨a, rfl, -⟩ := Engine.roll_outcomes hA
  obtain ⟨b, rfl, -⟩ := Engine.roll_outcomes hB
  refine ⟨rfl, ?_, ?_, ?_⟩
  · change (a ++ b.modifyHead ({ · with sign := s })).any _ = _
    rw [List.any_append, any_capped_modifyHead]
    rfl
  · change lastLabel? (a ++ b.modifyHead ({ · with sign := s })) =
      if g.hasFate then lastLabel? b else lastLabel? a
    rw [lastLabel?_append, lastLabel?_modifyHead, Formula.hasFate, ← lastLabel?_isSome yields]
    change (lastLabel? b).or _ = if (lastLabel? b).isSome then _ else _
    cases lastLabel? b <;> rfl
  · rintro rfl few
    have small : ∀ t ∈ a ++ b, t.outcome.Small := List.forall_mem_append.mpr ⟨smallA, smallB⟩
    have length : (a ++ b).length = f.terms.length + g.terms.length := by
      rw [List.length_append, ← lengthA, ← lengthB]
      rfl
    have totalA := (Engine.exact_of_draws (by omega) hA).total
    have totalB := (Engine.exact_of_draws (by omega) hB).total
    have kept : b.modifyHead ({ · with sign := .plus }) = b := modifyHead_plus yields
    change (ofTerms (f.join .plus g) (a ++ b.modifyHead ({ · with sign := .plus }))).total.toInt = _
    rw [kept, total_toInt small (by omega), totalA, totalB]
    exact exactTotal_append a b

/-! ### Whole texts -/

section Texts

variable {σ ε : Type} [Roller σ ε]

/-- On a roller, `f` and `g` joined go as `f`, and then as `g` on the roller after it. -/
def Engine.RollsJoined (e : Engine) (f : Formula) (s : Sign) (g : Formula) (r : σ) : Prop :=
  match (e.roll f).run r with
  | (.error cause, r₁) => (e.roll (f.join s g)).run r = (.error cause, r₁)
  | (.ok A, r₁) =>
    match (e.roll g).run r₁ with
    | (.error cause, r₂) => (e.roll (f.join s g)).run r = (.error cause, r₂)
    | (.ok B, r₂) => ∃ E, (e.roll (f.join s g)).run r = (.ok E, r₂) ∧ E.Joined f s g A B

theorem Engine.rollsJoined (e : Engine) (f : Formula) (s : Sign) (g : Formula) (r : σ) :
    e.RollsJoined f s g r := by
  unfold RollsJoined
  rw [roll_join, run_bind]
  cases first : (e.roll f).run r with
  | mk result r₁ =>
    cases result with
    | error cause => rfl
    | ok A =>
      dsimp only
      rw [run_bind]
      cases second : (e.roll g).run r₁ with
      | mk result r₂ =>
        cases result with
        | error cause => rfl
        | ok B =>
          exact ⟨_, rfl, Evaluation.joined_ofTerms (draws_drawn first) (draws_drawn second)⟩

/-- Two formula texts with a sign between them are parsed as one formula, which goes as the two in
turn. -/
theorem evaluate_join {a b : String} (ha : Formula.parse a = .ok f) (hb : Formula.parse b = .ok g)
    (s : Sign) (e : Engine) (r : σ) :
    Formula.parse (a ++ s.symbol.toString ++ b) = .ok (f.join s g) ∧
      (f.join s g).terms = f.terms ++ g.terms.modifyHead ({ · with sign := s }) ∧
      e.evaluate a = .ok (e.roll f) ∧ e.evaluate b = .ok (e.roll g) ∧
      e.evaluate (a ++ s.symbol.toString ++ b) = .ok (e.roll (f.join s g)) ∧
      e.RollsJoined f s g r := by
  have joined := Grammar.parse_join ha s hb
  exact ⟨joined, f.terms_join s g, e.evaluate_of_ok ha, e.evaluate_of_ok hb,
    e.evaluate_of_ok joined, e.rollsJoined f s g r⟩

theorem evaluate_join_dice_fate :
    let f : Formula := ⟨.dice ⟨2, 6, true⟩, []⟩
    let g : Formula := ⟨.fate 1, [⟨.minus, .flat 1⟩]⟩
    let r : Predetermined := ⟨[6, 3, 5], [⟨0⟩]⟩
    Formula.parse " 2D06! " = .ok f ∧ Formula.parse "1f - 1" = .ok g ∧
      Formula.parse (" 2D06! " ++ Sign.plus.symbol.toString ++ "1f - 1") = .ok (f.join .plus g) ∧
      (f.join .plus g).terms = f.terms ++ g.terms.modifyHead ({ · with sign := .plus }) ∧
      Engine.evaluate {} " 2D06! " = .ok (Engine.roll {} f) ∧
      Engine.evaluate {} "1f - 1" = .ok (Engine.roll {} g) ∧
      Engine.evaluate {} (" 2D06! " ++ Sign.plus.symbol.toString ++ "1f - 1") =
        .ok (Engine.roll {} (f.join .plus g)) ∧
      Engine.RollsJoined {} f .plus g r := by
  intro f g r
  have dice : Formula.parse " 2D06! " = .ok f := by decide +kernel
  have fate : Formula.parse "1f - 1" = .ok g := by decide +kernel
  exact ⟨dice, fate, evaluate_join dice fate .plus {} r⟩

end Texts

end TabletopDice
