import TabletopDice.Engine
import TabletopDice.Masters

/-!
# Difficulty checks

A check rolls a formula and compares its total with a difficulty. A gate may say who is allowed to;
it is asked before anything else.
-/

namespace TabletopDice

structure Check where
  difficulty : Score

structure Verdict where
  evaluation : Evaluation
  difficulty : Score

namespace Verdict

def success (v : Verdict) : Bool :=
  v.difficulty ≤ v.evaluation.total

/-- How far above the difficulty the total is, stopping at the ends of the range. -/
def margin (v : Verdict) : Score :=
  Score.sub v.evaluation.total v.difficulty

def text (v : Verdict) : String :=
  v.evaluation.text ++ "\nСложность " ++ Text.Decimal.ofInt v.difficulty.toInt ++ ": " ++
    if v.success then "Успех" else "Провал"

end Verdict

namespace Check

inductive Refusal where
  | formula (r : Formula.Rejection)
  | denied (p : Participant)
  deriving DecidableEq

def Refusal.message : Refusal → String
  | formula _ => Formula.usage
  | denied _ => "Проверки сложности доступны только мастеру"

def roll (c : Check) (e : Engine) (raw : String) : Except Formula.Rejection (Roll Verdict) :=
  (e.evaluate raw).map fun evaluation => return ⟨← evaluation, c.difficulty⟩

/-- Rolls for a participant, if the gate lets them through. -/
def rollAs (c : Check) (gate : Gate) (p : Participant) (e : Engine) (raw : String) :
    Except Refusal (Roll Verdict) :=
  if gate p then (c.roll e raw).mapError .formula else .error (.denied p)

end Check

end TabletopDice
