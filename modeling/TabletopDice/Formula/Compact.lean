import TabletopDice.Text.Blank
import TabletopDice.Text.Lowercase

/-!
# The compact form of a formula text

`compact` drops blanks and maps every other character to lower case, so the readers meet neither
blanks nor capitals. It works one character at a time: `compactChars_append`.
-/

namespace TabletopDice.Formula

def compactChars (cs : List Char) : List Char :=
  (cs.filter (!Text.isBlank ·)).flatMap Text.lower

/-- A text without its blanks and in lower case. -/
def compact (raw : String) : String :=
  String.ofList (compactChars raw.toList)

theorem compactChars_append (a b : List Char) :
    compactChars (a ++ b) = compactChars a ++ compactChars b := by
  simp [compactChars]

end TabletopDice.Formula
