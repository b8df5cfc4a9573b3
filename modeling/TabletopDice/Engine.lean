import TabletopDice.Evaluation
import TabletopDice.Formula.Parse

/-!
# The engine

An engine holds the settings of a table and says how a formula is rolled, its terms from left to
right. A text that is no formula asks for no roll at all.
-/

namespace TabletopDice

structure Engine where
  /-- How many times more a single exploding die may be rolled. -/
  maxExplosions : UInt16 := 100
  fateCount : UInt16 := 4
  fateCount_pos : 0 < fateCount := by decide

namespace Engine

def withMaxExplosions (e : Engine) (count : UInt16) : Engine :=
  { e with maxExplosions := count }

/-- A quick fate roll has at least one die. -/
def withFateCount (e : Engine) (count : UInt16) : Engine :=
  if h : 0 < count then { e with fateCount := count, fateCount_pos := h }
  else { e with fateCount := 1, fateCount_pos := by decide }

def rollTerm (e : Engine) : Term → Roll Outcome
  | .dice d => return .dice (← d.roll e.maxExplosions)
  | .fate count => return .fate (← FateThrow.roll count)
  | .flat value => return .flat value

/-- Rolls terms from left to right, what comes of them put in front of `done`. -/
def rollTerms (e : Engine) : List SignedTerm → List TermOutcome → Roll (List TermOutcome)
  | [], done => return done
  | t :: rest, done => do
    let outcome ← e.rollTerm t.term
    e.rollTerms rest (⟨t.sign, outcome⟩ :: done)

def roll (e : Engine) (f : Formula) : Roll Evaluation := do
  let terms ← e.rollTerms f.terms []
  return .ofTerms f terms.reverse

def evaluate (e : Engine) (raw : String) : Except Formula.Rejection (Roll Evaluation) :=
  (Formula.parse raw).map e.roll

/-- Rolls one die, which has at least one side. -/
def quickDie (e : Engine) (sides : UInt16) : Roll Evaluation :=
  e.roll ⟨.dice ⟨1, max sides 1, false⟩, []⟩

def quickFate (e : Engine) : Roll Evaluation :=
  e.roll ⟨.fate e.fateCount, []⟩

end Engine

end TabletopDice
