import TabletopDice.Check
import TabletopDice.Roller.Basic

/-!
# Tables

A table serves requests one after the other, with one engine and one roller. A request that is
turned down draws nothing.
-/

namespace TabletopDice

inductive Request where
  | evaluate (raw : String)
  | roll (f : Formula)
  | single (sides : UInt16)
  | quickFate
  | dice (d : Dice) (maxExplosions : UInt16)
  | fate (count : UInt16)
  | die (sides : UInt16)
  | unit
  | check (c : Check) (raw : String)
  | checkAs (c : Check) (gate : Gate) (p : Participant) (raw : String)

inductive Answer where
  | evaluation (e : Evaluation)
  | dice (t : DiceThrow)
  | fate (t : FateThrow)
  | face (face : UInt16)
  | unit (u : UnitDraw)
  | verdict (v : Verdict)
  | rejected (r : Formula.Rejection)
  | refused (r : Check.Refusal)

def Request.answer (e : Engine) : Request → Roll Answer
  | evaluate raw =>
    match e.evaluate raw with
    | .ok evaluation => return .evaluation (← evaluation)
    | .error r => return .rejected r
  | roll f => return .evaluation (← e.roll f)
  | single sides => return .evaluation (← e.quickDie sides)
  | quickFate => return .evaluation (← e.quickFate)
  | dice d maxExplosions => return .dice (← d.roll maxExplosions)
  | fate count => return .fate (← FateThrow.roll count)
  | die sides => return .face (← Roll.oneDie sides)
  | unit => return .unit (← Roll.oneUnit)
  | check c raw =>
    match c.roll e raw with
    | .ok verdict => return .verdict (← verdict)
    | .error r => return .refused (.formula r)
  | checkAs c gate p raw =>
    match c.rollAs gate p e raw with
    | .ok verdict => return .verdict (← verdict)
    | .error r => return .refused r

def Request.serve {σ ε : Type} [Roller σ ε] (e : Engine) (s : σ) :
    List Request → List (Except ε Answer) × σ
  | [] => ([], s)
  | request :: rest =>
    let (answer, s) := (request.answer e).run s
    let (more, s) := serve e s rest
    (answer :: more, s)

end TabletopDice
