import TabletopDice.Score
import TabletopDice.Text.Decimal

/-!
# Dice formulas

A formula is a leading term and any number of signed terms after it. `Formula.text` writes it in its
compact form, such as `2d6+1d8!-1`.
-/

namespace TabletopDice

/-- What happens to the term that follows. -/
inductive Sign where
  | plus
  | minus
  deriving DecidableEq

namespace Sign

def symbol : Sign → Char
  | plus => '+'
  | minus => '-'

def apply : Sign → Score → Score
  | plus, value => value
  | minus, value => Score.neg value

end Sign

/-- `count` equal dice. An exploding die that shows its highest face is rolled again. -/
structure Dice where
  count : UInt16
  sides : UInt16
  explode : Bool := false
  deriving DecidableEq

def Dice.mark (d : Dice) : String :=
  if d.explode then "!" else ""

def Dice.text (d : Dice) : String :=
  Text.Decimal.ofNat d.count.toNat ++ "d" ++ Text.Decimal.ofNat d.sides.toNat ++ d.mark

inductive Term where
  | dice (d : Dice)
  | fate (count : UInt16)
  | flat (value : UInt32)
  deriving DecidableEq

namespace Term

def text : Term → String
  | dice d => d.text
  | fate count => Text.Decimal.ofNat count.toNat ++ "f"
  | flat value => Text.Decimal.ofNat value.toNat

def isFate : Term → Bool
  | fate _ => true
  | _ => false

end Term

structure SignedTerm where
  sign : Sign
  term : Term
  deriving DecidableEq

def SignedTerm.text (t : SignedTerm) : String :=
  t.sign.symbol.toString ++ t.term.text

/-- A leading term, which is always added, and the signed terms after it. -/
structure Formula where
  lead : Term
  rest : List SignedTerm
  deriving DecidableEq

namespace Formula

/-- All terms in order, each under its sign. -/
def terms (f : Formula) : List SignedTerm :=
  ⟨.plus, f.lead⟩ :: f.rest

def hasFate (f : Formula) : Bool :=
  f.terms.any (·.term.isFate)

/-- The compact form: no blanks, and a sign only between two terms. -/
def text (f : Formula) : String :=
  f.lead.text ++ String.join (f.rest.map SignedTerm.text)

end Formula

end TabletopDice
