import TabletopDice.Roller.Basic

/-!
# The highest roller

Every die shows its highest face, and every number of the unit interval lies just below one.
-/

namespace TabletopDice

structure Highest where

namespace Highest

/-- One less the distance from one to the next larger number. -/
def highUnit : UnitDraw :=
  ⟨0x3FEFFFFFFFFFFFFE⟩

instance : Roller Highest Empty where
  rollDie sides h := (.ok sides, h)
  rollUnit h := (.ok highUnit, h)

end Highest

end TabletopDice
