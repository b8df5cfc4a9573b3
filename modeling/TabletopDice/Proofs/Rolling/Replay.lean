import Mathlib.Data.List.Forall2
import TabletopDice.Engine
import TabletopDice.Proofs.Rolling.Throws

/-!
# Repeating an evaluation

An evaluation accounts for every value drawn on the way to it, each under the term it was drawn for,
and the values drawn decide it: `roll_replays`.
-/

namespace TabletopDice

open Roll

def Outcome.faces : Outcome → List UInt16
  | dice t => t.faces
  | _ => []

def Outcome.fateDice : Outcome → List FateDie
  | fate t => t.dice
  | _ => []

/-- Whether an outcome is one of a term: of its kind, with its dice or its value. -/
def Term.Yields : Term → Outcome → Prop
  | dice d, .dice t => t.dice = d
  | fate count, .fate t => t.dice.length = count.toNat
  | flat value, .flat v => v = value
  | _, _ => False

def SignedTerm.Yields (t : SignedTerm) (o : TermOutcome) : Prop :=
  o.sign = t.sign ∧ t.term.Yields o.outcome

/-- `outcomes` holds an outcome for each term, and together they show what was drawn, in order. -/
structure Accounts (terms : List SignedTerm) (F : List UInt16) (U : List UnitDraw)
    (outcomes : List TermOutcome) : Prop where
  yields : List.Forall₂ SignedTerm.Yields terms outcomes
  faces : outcomes.flatMap (·.outcome.faces) = F
  fateDice : outcomes.flatMap (·.outcome.fateDice) = U.map FateDie.ofUnit

variable {e : Engine} {F : List UInt16} {U : List UnitDraw}

theorem Accounts.cons {t : SignedTerm} {terms : List SignedTerm} {o : Outcome}
    {outcomes : List TermOutcome} {U' : List UnitDraw} (first : t.term.Yields o)
    (units : o.fateDice = U'.map FateDie.ofUnit) (rest : Accounts terms F U outcomes) :
    Accounts (t :: terms) (o.faces ++ F) (U' ++ U) (⟨t.sign, o⟩ :: outcomes) where
  yields := .cons ⟨rfl, first⟩ rest.yields
  faces := by rw [List.flatMap_cons, rest.faces]
  fateDice := by rw [List.flatMap_cons, rest.fateDice, units, List.map_append]

namespace Engine

theorem rollTerm_draws {t : Term} {o : Outcome} (h : Draws (e.rollTerm t) F U o) :
    t.Yields o ∧ o.faces = F ∧ o.fateDice = U.map FateDie.ofUnit := by
  cases t with
  | dice d =>
    obtain ⟨throw, F₁, F₂, U₁, U₂, rfl, rfl, first, second⟩ := draws_bind_iff.mp h
    obtain ⟨rfl, same, rfl⟩ := Dice.roll_draws first
    obtain ⟨rfl, rfl, rfl⟩ := draws_done_iff.mp second
    exact ⟨same, (List.append_nil _).symm, rfl⟩
  | fate count =>
    obtain ⟨throw, F₁, F₂, U₁, U₂, rfl, rfl, first, second⟩ := draws_bind_iff.mp h
    obtain ⟨rfl, length, dice⟩ := FateThrow.roll_draws first
    obtain ⟨rfl, rfl, rfl⟩ := draws_done_iff.mp second
    refine ⟨?_, rfl, ?_⟩
    · change throw.dice.length = count.toNat
      rw [dice, List.length_map, length]
    · rw [List.append_nil]
      exact dice
  | flat value =>
    obtain ⟨rfl, rfl, rfl⟩ := draws_done_iff.mp h
    exact ⟨rfl, rfl, rfl⟩

theorem rollTerms_draws {terms : List SignedTerm} {done out : List TermOutcome}
    (h : Draws (e.rollTerms terms done) F U out) :
    ∃ outcomes, out = outcomes.reverse ++ done ∧ Accounts terms F U outcomes := by
  induction terms generalizing done F U with
  | nil =>
    obtain ⟨rfl, rfl, rfl⟩ := draws_done_iff.mp h
    exact ⟨[], rfl, .nil, rfl, rfl⟩
  | cons t terms ih =>
    obtain ⟨o, F₁, F₂, U₁, U₂, rfl, rfl, first, second⟩ := draws_bind_iff.mp h
    obtain ⟨yields, rfl, units⟩ := rollTerm_draws first
    obtain ⟨outcomes, rfl, rest⟩ := ih second
    exact ⟨⟨t.sign, o⟩ :: outcomes, by simp, rest.cons yields units⟩

theorem roll_draws {f : Formula} {E : Evaluation} (h : Draws (e.roll f) F U E) :
    E.formula = f ∧ Accounts f.terms F U E.terms := by
  obtain ⟨out, F₁, F₂, U₁, U₂, rfl, rfl, first, second⟩ := draws_bind_iff.mp h
  obtain ⟨outcomes, rfl, accounts⟩ := rollTerms_draws first
  obtain ⟨rfl, rfl, rfl⟩ := draws_done_iff.mp second
  refine ⟨rfl, ?_⟩
  simpa [Evaluation.ofTerms] using accounts

/-- An evaluation accounts for all that a roller handed out for it. A predetermined roller that
starts with the same values comes to the same evaluation and keeps the values behind them; one that
lacks some of them fails. -/
theorem roll_replays {σ ε : Type} [Roller σ ε] {e : Engine} {f : Formula} {E : Evaluation}
    {s s' : σ} (h : (e.roll f).run s = (.ok E, s')) :
    ∃ F U, (e.roll f).drawn s = ⟨F, U⟩ ∧ E.formula = f ∧ Accounts f.terms F U E.terms ∧
      (∀ X Y, (e.roll f).run (⟨F ++ X, U ++ Y⟩ : Predetermined) = (.ok E, ⟨X, Y⟩)) ∧
      (∀ F', F' <+: F → F' ≠ F →
        ((e.roll f).run (⟨F', U⟩ : Predetermined)).1 = .error .dice) ∧
      ∀ U', U' <+: U → U' ≠ U →
        ((e.roll f).run (⟨F, U'⟩ : Predetermined)).1 = .error .units := by
  have draws := draws_drawn h
  obtain ⟨formula, accounts⟩ := roll_draws draws
  refine ⟨_, _, rfl, formula, accounts, draws.replay, ?_, ?_⟩
  · intro F' starts short
    have failed := draws.run_short_faces starts short []
    rwa [List.append_nil] at failed
  · intro U' starts short
    have failed := draws.run_short_units starts short []
    rwa [List.append_nil] at failed

theorem roll_replays_exploding :
    let f : Formula := ⟨.dice ⟨1, 6, true⟩, [⟨.plus, .fate 1⟩, ⟨.minus, .flat 3⟩]⟩
    let s : Predetermined := ⟨[6, 2, 5], [⟨0⟩, ⟨1⟩]⟩
    ∃ E, (Engine.roll {} f).run s = (.ok E, ⟨[5], [⟨1⟩]⟩) ∧
      ∃ F U, (Engine.roll {} f).drawn s = ⟨F, U⟩ ∧ E.formula = f ∧ Accounts f.terms F U E.terms ∧
        (∀ X Y, (Engine.roll {} f).run (⟨F ++ X, U ++ Y⟩ : Predetermined) = (.ok E, ⟨X, Y⟩)) ∧
        (∀ F', F' <+: F → F' ≠ F →
          ((Engine.roll {} f).run (⟨F', U⟩ : Predetermined)).1 = .error .dice) ∧
        ∀ U', U' <+: U → U' ≠ U →
          ((Engine.roll {} f).run (⟨F, U'⟩ : Predetermined)).1 = .error .units :=
  ⟨_, rfl, roll_replays rfl⟩

end Engine

end TabletopDice
