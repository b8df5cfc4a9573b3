import TabletopDice.Formula.Compact
import TabletopDice.Formula.Reader

/-!
# Why a text is no formula

A reader that fails leaves attempts behind: places it reached, each with what it looked for there.
The reason for a rejection is the farthest of these places and all that was looked for at it.
-/

namespace TabletopDice.Formula

/-- What a reader looks for at one place. -/
inductive Expected where
  | literal (c : Char)
  | endOfInput
  deriving DecidableEq

/-- A place that a reader reached, given by the text left there, and what it looked for. A run of
digits looks for nothing: it may end anywhere. -/
structure Attempt where
  left : List Char
  expected : Option Expected

def Attempt.literal (left : List Char) (c : Char) : Attempt :=
  ⟨left, some (.literal c)⟩

def Attempt.digitsEnd (left : List Char) : Attempt :=
  ⟨left, none⟩

/-! ### Attempts of the readers -/

/-- A `!` that is not there was still looked for. -/
def markAttempts (cs : List Char) : List Attempt :=
  match past? '!' cs with
  | some _ => []
  | none => [.literal cs '!']

def diceAttempts (cs : List Char) : List Attempt :=
  let letterOn := pastDigits cs
  .digitsEnd letterOn ::
    if (positive? (digitRun cs)).isNone then []
    else match past? 'd' letterOn with
      | none => [.literal letterOn 'd']
      | some sidesOn =>
        .digitsEnd (pastDigits sidesOn) ::
          if (positive? (digitRun sidesOn)).isNone then [] else markAttempts (pastDigits sidesOn)

def fateAttempts (cs : List Char) : List Attempt :=
  let letterOn := pastDigits cs
  .digitsEnd letterOn ::
    if (positive? (digitRun cs)).isNone then []
    else match past? 'f' letterOn with
      | none => [.literal letterOn 'f']
      | some rest => .digitsEnd (pastDigits rest) :: markAttempts (pastDigits rest)

def flatAttempts (cs : List Char) : List Attempt :=
  [.digitsEnd (pastDigits cs)]

/-- Fate dice are only tried where there are no dice. -/
def leadAttempts (cs : List Char) : List Attempt :=
  diceAttempts cs ++ if (readDice? cs).isSome then [] else fateAttempts cs

/-- A modifier is only tried where no other term is. -/
def termAttempts (cs : List Char) : List Attempt :=
  leadAttempts cs ++ if (readLead? cs).isSome then [] else flatAttempts cs

def signAttempts : List Char → List Attempt
  | '+' :: _ => []
  | cs@('-' :: _) => [.literal cs '+']
  | cs => [.literal cs '+', .literal cs '-']

def signedTermAttempts (cs : List Char) : List Attempt :=
  signAttempts cs ++
    match readSign? cs with
    | some (_, termOn) => termAttempts termOn
    | none => []

/-- The attempts at the signed terms of a text, from the last one that could be read, whose own
attempts follow `before`. Earlier ones lie to the left of its sign. -/
def restAttempts (before : List Attempt) (cs : List Char) : List Attempt :=
  match _h : readSignedTerm? cs with
  | some (_, rest) => restAttempts (signedTermAttempts cs) rest
  | none =>
    before ++ signedTermAttempts cs ++ if cs = [] then [] else [⟨cs, some .endOfInput⟩]
  termination_by cs.length
  decreasing_by exact readSignedTerm?_length _h

/-- The attempts that decide why a text is no formula. -/
def formulaAttempts (cs : List Char) : List Attempt :=
  match readLead? cs with
  | some (_, rest) => restAttempts (leadAttempts cs) rest
  | none => leadAttempts cs

/-! ### The farthest attempt -/

/-- A place, given by the text left there, and all that was looked for at it. -/
structure Farthest where
  left : List Char
  expected : List Expected

/-- An attempt farther on replaces the earlier ones; one at the same place joins them. -/
def Farthest.add (best : Farthest) (a : Attempt) : Farthest :=
  if a.left.length < best.left.length then ⟨a.left, a.expected.toList⟩
  else if a.left.length = best.left.length then
    ⟨best.left, best.expected ++ a.expected.toList.filter (!best.expected.contains ·)⟩
  else best

/-- The farthest place in a text that its attempts reached. -/
def farthest (cs : List Char) (attempts : List Attempt) : Farthest :=
  attempts.foldl Farthest.add ⟨cs, []⟩

/-! ### Rejections -/

/-- Why a text is no formula: the character found at bytes `start` to `stop`, or the end of the text
if there is none, and what could have stood there. -/
structure Reason where
  start : Nat
  stop : Nat
  found : Option Char
  expected : List Expected
  deriving DecidableEq

def Expected.text : Expected → String
  | literal c => "'" ++ c.toString ++ "'"
  | endOfInput => "end of input"

/-- The alternatives after the first one: commas between them, and "or" before the last. -/
def moreAlternatives : List Expected → String
  | [] => ""
  | [e] => ", or " ++ e.text
  | e :: es => ", " ++ e.text ++ moreAlternatives es

def alternatives : List Expected → String
  | [] => "something else"
  | e :: es => e.text ++ moreAlternatives es

def Reason.message (r : Reason) : String :=
  "found " ++ (r.found.map Char.toString).getD "end of input" ++ " expected " ++
    alternatives r.expected

/-- A text in compact form that is no formula, and why. -/
structure Rejection where
  formula : String
  reason : Reason
  deriving DecidableEq

def usage : String :=
  "Неверная формула. Пример: 2d6+1d8-1 или 1d20! или 4f"

def reason (cs : List Char) : Reason :=
  let best := farthest cs (formulaAttempts cs)
  let before := cs.take (cs.length - best.left.length)
  let start := (String.ofList before).utf8ByteSize
  ⟨start, start + (best.left.head?.map Char.utf8Size).getD 0, best.left.head?, best.expected⟩

end TabletopDice.Formula
