import TabletopDice.CommandLine.Run

/-!
# The command

`main` connects the command line to the standard streams. A chat is answered line by line.
-/

namespace TabletopDice.CommandLine

/-- A counter to start from without a seed. -/
def entropy : IO UInt64 := do
  let bytes ← IO.getRandomBytes 8
  return bytes.toList.foldl (fun n b => n * 256 + b.toUInt64) 0

def finish (r : ExitReport) : IO UInt32 := do
  let out ← IO.getStdout
  out.putStr r.stdout
  out.flush
  (← IO.getStderr).putStr r.stderr
  return r.code

/-- Answers the lines of standard input as they come in. `start` is the reversed start of a line. -/
partial def converse (e : Engine) (chat : Chat) (start : List UInt8) : IO UInt32 := do
  let input ← IO.getStdin
  let bytes ← input.read 1
  match bytes.toList with
  | b :: _ => if b = newline then reply true else converse e chat (b :: start)
  | [] => reply false
where
  reply (goOn : Bool) : IO UInt32 := do
    match chat.line? e start.reverse with
    | some (text, chat) =>
      let out ← IO.getStdout
      out.putStr text
      out.flush
      if goOn then converse e chat [] else return 0
    | none => finish ⟨1, "", "a line is not valid UTF-8\n"⟩

end TabletopDice.CommandLine

open TabletopDice.CommandLine in
def main (args : List String) : IO UInt32 := do
  let start ← entropy
  match Settings.ofArguments args with
  | .ok (.run o) =>
    if o.words = [] then
      let (text, chat) := Chat.opening o.engine (o.generator start)
      let _ ← finish ⟨0, text, ""⟩
      converse o.engine chat []
    else finish (o.roll (o.generator start))
  | _ => finish (run args [] start)
