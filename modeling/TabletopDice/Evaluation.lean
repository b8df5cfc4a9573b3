import TabletopDice.Throw.Dice
import TabletopDice.Throw.Fate

/-!
# Evaluations

An evaluation holds a formula, what came of each of its terms, and their total. Its text is the
answer that is sent to a chat.
-/

namespace TabletopDice

inductive Outcome where
  | dice (t : DiceThrow)
  | fate (t : FateThrow)
  | flat (value : UInt32)
  deriving DecidableEq

def Outcome.total : Outcome → Score
  | dice t => t.total
  | fate t => t.total
  | flat value => Int64.ofNat value.toNat

structure TermOutcome where
  sign : Sign
  outcome : Outcome
  deriving DecidableEq

namespace TermOutcome

def contribution (t : TermOutcome) : Score :=
  t.sign.apply t.outcome.total

/-- Throws list what was rolled; only a modifier shows its sign. -/
def describe (t : TermOutcome) (limit : Option Nat) : String :=
  match t.outcome with
  | .dice d => d.describe limit
  | .fate f => f.describe
  | .flat value => t.sign.symbol.toString ++ Text.Decimal.ofNat value.toNat

def fateLabel? (t : TermOutcome) : Option String :=
  match t.outcome with
  | .fate f => some f.label
  | _ => none

def capped (t : TermOutcome) : Bool :=
  match t.outcome with
  | .dice d => d.capped
  | _ => false

end TermOutcome

structure Evaluation where
  formula : Formula
  terms : List TermOutcome
  total : Score
  /-- The name of what the last fate dice showed, their sign left aside. -/
  fateLabel : Option String
  deriving DecidableEq

namespace Evaluation

def ofTerms (formula : Formula) (terms : List TermOutcome) : Evaluation where
  formula
  terms
  total := terms.foldl (fun total t => Score.add total t.contribution) 0
  fateLabel := terms.reverse.findSome? TermOutcome.fateLabel?

def rolls (e : Evaluation) (limit : Option Nat) : List String :=
  e.terms.map (·.describe limit)

def capped (e : Evaluation) : Bool :=
  e.terms.any TermOutcome.capped

def termSeparator : String := " + "

/-- What was rolled, the total and, on a line of its own, the fate label if it is not empty. -/
def describe (e : Evaluation) (limit : Option Nat) : String :=
  let label := e.fateLabel.getD ""
  "Бросок " ++ String.intercalate termSeparator (e.rolls limit) ++ " = " ++
    Text.Decimal.ofInt e.total.toInt ++ if label = "" then "" else "\nРезультат: " ++ label

def text (e : Evaluation) : String :=
  e.describe none

end Evaluation

end TabletopDice
