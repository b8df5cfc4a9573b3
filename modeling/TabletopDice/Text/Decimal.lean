/-!
# Decimal numbers

`ofNat` and `ofInt` write a number with the fewest digits. `unsigned?` and `signed?` read the whole
of a text: any number of leading zeros, and no sign but the ones they name. Every reader here takes
the ten ASCII digits alone.
-/

namespace TabletopDice.Text.Decimal

def value (digits : List Char) : Nat :=
  Nat.ofDigitChars 10 digits 0

def ofNat (n : Nat) : String :=
  String.ofList (Nat.toDigits 10 n)

/-- The decimal digits of an integer, after a `-` if it is negative. -/
def ofInt : Int → String
  | .ofNat n => ofNat n
  | .negSucc n => "-" ++ ofNat (n + 1)

/-- The number of a non-empty text of digits. -/
def digits? (cs : List Char) : Option Nat :=
  if cs ≠ [] ∧ cs.all Char.isDigit then some (value cs) else none

/-- A number of at most `max`, after at most one `+`. -/
def unsigned? (max : Nat) (cs : List Char) : Option Nat :=
  let read := match cs with
    | '+' :: rest => digits? rest
    | _ => digits? cs
  read.filter (· ≤ max)

/-- A number from `min` to `max`, after at most one sign. -/
def signed? (min max : Int) (cs : List Char) : Option Int :=
  let read : Option Int := match cs with
    | '+' :: rest => (digits? rest).map Int.ofNat
    | '-' :: rest => (digits? rest).map (fun n => -Int.ofNat n)
    | _ => (digits? cs).map Int.ofNat
  read.filter fun n => min ≤ n && n ≤ max

theorem value_ofNat (n : Nat) : value (ofNat n).toList = n := by
  simp [value, ofNat, Nat.ofDigitChars_ten_toDigits]

end TabletopDice.Text.Decimal
