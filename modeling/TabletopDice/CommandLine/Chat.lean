import TabletopDice.Dialogue.Session
import TabletopDice.Roller.Seeded

/-!
# The chat on standard input

Without a formula, a session runs over the lines of standard input. A line may hold a message or
what a main menu button sends. The chat ends at the first line that is not valid UTF-8.
-/

namespace TabletopDice.CommandLine

open Dialogue

def newline : UInt8 := 0x0A

def renderRow (buttons : List String) : String :=
  "  " ++ String.intercalate " " (buttons.map fun b => "[" ++ b ++ "]") ++ "\n"

def renderKeyboard : Keyboard → String
  | .inline rows =>
    String.join (rows.map fun row => renderRow (row.map fun b => b.text ++ ": " ++ b.data))
  | .reply rows => String.join (rows.map renderRow)
  | .remove => ""

/-- A reply as lines of text, the rows of its keyboard below it. -/
def renderReply (r : Reply) : String :=
  r.text ++ "\n" ++ (r.keyboard.map renderKeyboard).getD ""

def renderReplies (rs : List Reply) : String :=
  String.join (rs.map renderReply)

/-- What a line stands for, if it is not blank. -/
def inputOfLine? (line : String) : Option Input :=
  let text := Text.trim line
  if text = "" then none
  else some ((Choice.ofData? text).elim (Input.ofText text) Input.choice)

/-- A chat whose roller never fails. -/
abbrev Chat := Session Seeded

namespace Chat

/-- Handles one input: the text it prints, and the chat afterwards. -/
def handle (e : Engine) (chat : Chat) (input : Input) : String × Chat :=
  match chat.step e input with
  | (.ok replies, chat) => (renderReplies replies, chat)

/-- A chat with the given generator, and the text that opens it. -/
def opening (e : Engine) (g : Seeded) : String × Chat :=
  handle e ⟨.idle, g⟩ .start

/-- Handles one line: the text it prints, and the chat afterwards. There is none if the line is not
valid UTF-8. -/
def line? (e : Engine) (chat : Chat) (bytes : List UInt8) : Option (String × Chat) :=
  (String.fromUTF8? bytes.toByteArray).map fun line =>
    match inputOfLine? line with
    | some input => chat.handle e input
    | none => ("", chat)

/-- All that is printed for some lines, after `printed`, and whether all of them were valid. -/
def lines (e : Engine) (chat : Chat) (printed : String) : List (List UInt8) → String × Bool
  | [] => (printed, true)
  | bytes :: rest =>
    match chat.line? e bytes with
    | some (text, chat) => lines e chat (printed ++ text) rest
    | none => (printed, false)

/-- All that is printed for a standard input, and whether all of its lines were valid. -/
def run (e : Engine) (g : Seeded) (input : List UInt8) : String × Bool :=
  let (text, chat) := opening e g
  chat.lines e text (input.splitOn newline)

end Chat

end TabletopDice.CommandLine
