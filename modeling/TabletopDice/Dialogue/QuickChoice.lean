import TabletopDice.Engine

/-!
# Quick rolls

In quick roll mode a text names a single die, such as `1d20`, or fate dice.
-/

namespace TabletopDice.Dialogue

inductive QuickChoice where
  | die (sides : UInt16)
  | fate
  deriving DecidableEq

namespace QuickChoice

def fateTexts : List String :=
  ["Судьба", "Кубы судьбы"]

/-- The number of sides in a text such as `1d20`: 1 to 65535, possibly after a `+`. -/
def sides? (text : String) : Option UInt16 :=
  match text.toList with
  | '1' :: 'd' :: number =>
    ((Text.Decimal.unsigned? (UInt16.size - 1) number).filter (0 < ·)).map UInt16.ofNat
  | _ => none

/-- What a text names, whatever blanks stand around it. -/
def ofText? (text : String) : Option QuickChoice :=
  let text := Text.trim text
  if fateTexts.contains text then some fate else (sides? text).map die

def roll (e : Engine) : QuickChoice → Roll Evaluation
  | die sides => e.quickDie sides
  | fate => e.quickFate

end QuickChoice

end TabletopDice.Dialogue
