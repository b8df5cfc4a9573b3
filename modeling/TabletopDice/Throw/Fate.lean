import TabletopDice.Score
import TabletopDice.Roll.Basic

/-!
# Fate dice

A fate die shows minus, blank or plus. `ladder` names the sum of four of them.
-/

namespace TabletopDice

inductive FateDie where
  | minus
  | blank
  | plus
  deriving DecidableEq

namespace FateDie

/-- Unit draws below this are a minus. -/
def minusBelow : Float := 0.33

/-- Unit draws below this that are no minus are blank. -/
def blankBelow : Float := 0.66

def ofUnit (u : UnitDraw) : FateDie :=
  if u.value < minusBelow then minus
  else if u.value < blankBelow then blank
  else plus

def value : FateDie → Int64
  | minus => -1
  | blank => 0
  | plus => 1

def glyph : FateDie → String
  | minus => " - "
  | blank => "   "
  | plus => " + "

end FateDie

/-- The name of a sum of fate dice, empty beyond -4 and 4. -/
def ladder (sum : Score) : String :=
  match sum.toInt with
  | -4 => "Ужасающий"
  | -3 => "Катастрофический"
  | -2 => "Ужасный"
  | -1 => "Плохой"
  | 0 => "Средний"
  | 1 => "Посредственный"
  | 2 => "Хороший"
  | 3 => "Эпический"
  | 4 => "Легендарный"
  | _ => ""

structure FateThrow where
  dice : List FateDie
  deriving DecidableEq

namespace FateThrow

def total (t : FateThrow) : Score :=
  t.dice.foldl (fun sum die => sum + die.value) 0

def label (t : FateThrow) : String :=
  ladder t.total

def describe (t : FateThrow) : String :=
  String.intercalate " , " (t.dice.map FateDie.glyph)

/-- The given number of fate dice, put in front of `dice`. -/
def rollMany : Nat → List FateDie → Roll (List FateDie)
  | 0, dice => return dice
  | n + 1, dice => do
    let u ← Roll.oneUnit
    rollMany n (FateDie.ofUnit u :: dice)

def roll (count : UInt16) : Roll FateThrow := do
  let dice ← rollMany count.toNat []
  return ⟨dice.reverse⟩

end FateThrow

end TabletopDice
