import TabletopDice.Roller.Basic

/-!
# The predetermined roller

Hands out given values in order, and fails once they are used up.
-/

namespace TabletopDice

/-- The values still to come. -/
structure Predetermined where
  faces : List UInt16
  units : List UnitDraw := []

inductive Exhausted where
  | dice
  | units
  deriving DecidableEq

def Exhausted.message : Exhausted → String
  | dice => "die values are exhausted"
  | units => "unit values are exhausted"

namespace Predetermined

def canRoll (p : Predetermined) : Bool :=
  !p.faces.isEmpty

/-- The next face, whatever die it is for. -/
def nextFace (p : Predetermined) : Except Exhausted UInt16 × Predetermined :=
  match p.faces with
  | [] => (.error .dice, p)
  | face :: faces => (.ok face, { p with faces })

def nextUnit (p : Predetermined) : Except Exhausted UnitDraw × Predetermined :=
  match p.units with
  | [] => (.error .units, p)
  | u :: units => (.ok u, { p with units })

instance : Roller Predetermined Exhausted where
  rollDie _ := nextFace
  rollUnit := nextUnit

end Predetermined

end TabletopDice
