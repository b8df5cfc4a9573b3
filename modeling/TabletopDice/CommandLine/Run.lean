import TabletopDice.Check
import TabletopDice.CommandLine.Arguments
import TabletopDice.CommandLine.Chat

/-!
# Running the command line

`run` gives the exit code and the output of a whole run. The exit codes are 0 for success, the help
and the version included, 1 for a text that is no formula or a line that cannot be read, and 2 for
arguments that are not understood.
-/

namespace TabletopDice.CommandLine

/-- How a run ends, and all that it prints. -/
structure ExitReport where
  code : UInt32
  stdout : String
  stderr : String := ""
  deriving DecidableEq

def version : String := "epicforge 0.1.0"

/-- How the help tells the value that an option has if it is left out. -/
def defaultNote (count : UInt16) : String :=
  " [default: " ++ toString count ++ "]"

def helpLines : List String := [
  "Dice formula engine (exploding dice, fate dice) and dialogue core for a tabletop dice chat bot",
  "",
  "Usage: epicforge [OPTIONS] [FORMULA]...",
  "",
  "Arguments:",
  "  [FORMULA]...  Formula to roll. All words are joined, so it can be left unquoted even with " ++
    "spaces (quote it when a word starts with `-` and isn't a plain number, like `-1d4`). Without " ++
    "a formula, an interactive chat session runs on stdin",
  "",
  "Options:",
  "      --dc <DC>",
  "          Check the total against this difficulty",
  "      --max-explosions <MAX_EXPLOSIONS>",
  "          Maximum extra rolls a single exploding die may chain into" ++
    defaultNote ({} : Settings).engine.maxExplosions,
  "      --fate-count <FATE_COUNT>",
  "          Number of dice for a quick fate roll" ++ defaultNote ({} : Settings).engine.fateCount,
  "      --seed <SEED>",
  "          Seed for the random number generator",
  "  -h, --help",
  "          Print help",
  "  -V, --version",
  "          Print version"]

namespace Settings

/-- The generator of a run: the seed that was asked for, else the given one. -/
def generator (o : Settings) (entropy : UInt64) : Seeded :=
  ⟨o.seed.getD entropy⟩

/-- The text that the words of the settings roll, checked if there is a difficulty. -/
def rollWords (o : Settings) : Except Formula.Rejection (Roll String) :=
  let raw := String.intercalate " " o.words
  match o.difficulty with
  | some difficulty =>
    ((⟨difficulty⟩ : Check).roll o.engine raw).map fun verdict => return (← verdict).text
  | none => (o.engine.evaluate raw).map fun evaluation => return (← evaluation).text

def roll (o : Settings) (g : Seeded) : ExitReport :=
  match o.rollWords with
  | .ok text => ⟨0, (text.draw g).1 ++ "\n", ""⟩
  | .error r => ⟨1, "", Formula.usage ++ ": " ++ r.reason.message ++ "\n"⟩

def chat (o : Settings) (g : Seeded) (input : List UInt8) : ExitReport :=
  match Chat.run o.engine g input with
  | (text, true) => ⟨0, text, ""⟩
  | (text, false) => ⟨1, text, "a line is not valid UTF-8\n"⟩

end Settings

/-- A whole run over a standard input. Without a seed, `entropy` takes its place. -/
def run (args : List String) (input : List UInt8) (entropy : UInt64) : ExitReport :=
  match Settings.ofArguments args with
  | .ok (.run o) =>
    let g := o.generator entropy
    if o.words = [] then o.chat g input else o.roll g
  | .ok .help => ⟨0, String.intercalate "\n" helpLines ++ "\n", ""⟩
  | .ok .version => ⟨0, version ++ "\n", ""⟩
  | .error e => ⟨2, "", e.message ++ "\n"⟩

end TabletopDice.CommandLine
