import TabletopDice.Formula.Rejection

/-!
# Parsing

`parse` gives the formula of a raw text, or says why there is none.
-/

namespace TabletopDice.Formula

def parse (raw : String) : Except Rejection Formula :=
  let text := compact raw
  match whole? readFormula? text.toList with
  | some f => .ok f
  | none => .error ⟨text, reason text.toList⟩

/-- Whether the text of a formula stands for that formula again. -/
def readsBack (f : Formula) : Bool :=
  match parse f.text with
  | .ok g => g == f
  | .error _ => false

end TabletopDice.Formula
