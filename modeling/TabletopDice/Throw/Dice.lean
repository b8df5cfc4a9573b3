import TabletopDice.Formula.Basic
import TabletopDice.Roll.Basic

/-!
# Throwing dice

A die that explodes is rolled again after every highest face, up to a number of extra rolls of its
own. The faces of a throw are all that was drawn, in order.
-/

namespace TabletopDice

structure DiceThrow where
  dice : Dice
  /-- Every face drawn; extra faces follow the one that set them off. -/
  faces : List UInt16
  /-- Whether a die had used up its extra rolls and still showed its highest face. -/
  capped : Bool := false
  deriving DecidableEq

namespace DiceThrow

def total (t : DiceThrow) : Score :=
  t.faces.foldl (fun sum face => sum + Int64.ofNat face.toNat) 0

/-- How many faces there are beyond one for each die. -/
def extraFaces (t : DiceThrow) : Nat :=
  t.faces.length - t.dice.count.toNat

/-- The faces, or the first `limit` of them and how many are left out, and the kind of die. -/
def describe (t : DiceThrow) (limit : Option Nat) : String :=
  let shown := limit.getD t.faces.length
  let hidden := t.faces.length - shown
  String.intercalate ", " ((t.faces.take shown).map fun face => Text.Decimal.ofNat face.toNat) ++
    (if hidden = 0 then "" else ", " ++ Text.Decimal.ofNat hidden ++ " more...") ++
    " [d" ++ Text.Decimal.ofNat t.dice.sides.toNat ++ t.dice.mark ++ "]"

end DiceThrow

namespace Dice

/-- One exploding die that may be rolled `extra` times more, its faces put in front of `faces`.
Also tells whether the extra rolls were used up. -/
def rollChain (sides : UInt16) (extra : Nat) (faces : List UInt16) : Roll (List UInt16 × Bool) := do
  let face ← Roll.oneDie sides
  if face = sides then
    match extra with
    | 0 => return (face :: faces, true)
    | extra + 1 => rollChain sides extra (face :: faces)
  else return (face :: faces, false)

/-- One die of `d`, its faces put in front of `faces`. -/
def rollOne (d : Dice) (extra : Nat) (faces : List UInt16) : Roll (List UInt16 × Bool) :=
  if d.explode then rollChain d.sides extra faces
  else do
    let face ← Roll.oneDie d.sides
    return (face :: faces, false)

/-- The given number of dice like those of `d`, their faces put in front of `faces`. -/
def rollMany (d : Dice) (extra : Nat) : Nat → List UInt16 → Bool → Roll (List UInt16 × Bool)
  | 0, faces, capped => return (faces, capped)
  | n + 1, faces, capped => do
    let (faces, cut) ← d.rollOne extra faces
    d.rollMany extra n faces (capped || cut)

/-- Rolls all of the dice. Each may be rolled at most `maxExplosions` times more. -/
def roll (d : Dice) (maxExplosions : UInt16) : Roll DiceThrow := do
  let (faces, capped) ← d.rollMany maxExplosions.toNat d.count.toNat [] false
  return ⟨d, faces.reverse, capped⟩

end Dice

end TabletopDice
