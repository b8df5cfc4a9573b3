import TabletopDice.Engine

/-!
# Arguments

Arguments are options, each with a value and at most once, and the words of a formula around them.
Or they ask for the help or the version, and no argument behind that is read. `Settings.ofArguments`
reads a list of arguments.
-/

namespace TabletopDice.CommandLine

inductive Setting where
  | difficulty
  | maxExplosions
  | fateCount
  | seed
  deriving DecidableEq

namespace Setting

def name : Setting → String
  | difficulty => "dc"
  | maxExplosions => "max-explosions"
  | fateCount => "fate-count"
  | seed => "seed"

def ofName? (name : List Char) : Option Setting :=
  [difficulty, maxExplosions, fateCount, seed].find? (·.name.toList == name)

end Setting

def isExponentMark (c : Char) : Bool :=
  c == 'e' || c == 'E'

/-- Whether the text after a minus looks like a number: digits with at most one point, which is not
first, and at most one exponent mark after it, which is neither first nor last. -/
def looksLikeNumber (cs : List Char) : Bool :=
  let (mantissa, exponent) := cs.span (!isExponentMark ·)
  let (whole, fraction) := mantissa.span (· != '.')
  whole.all Char.isDigit && (fraction.drop 1).all Char.isDigit && (exponent.drop 1).all Char.isDigit &&
    (fraction == [] || whole != []) && (exponent == [] || mantissa != []) && exponent.length != 1

inductive Argument where
  | word (text : String)
  | setting (s : Setting) (value : Option String)
  | help
  | version
  | separator
  | unknown (text : String)
  deriving DecidableEq

namespace Argument

/-- What an argument is that begins with two minuses, given without them. -/
def ofLong (cs : List Char) : Argument :=
  let (name, value) := cs.span (· != '=')
  if cs == "help".toList then help
  else if cs == "version".toList then version
  else
    match Setting.ofName? name with
    | some s => setting s (if value == [] then none else some (String.ofList (value.drop 1)))
    | none => unknown (String.ofList ('-' :: '-' :: cs))

def ofString (arg : String) : Argument :=
  match arg.toList with
  | ['-', '-'] => separator
  | '-' :: '-' :: cs => ofLong cs
  | '-' :: 'h' :: _ => help
  | '-' :: 'V' :: _ => version
  | '-' :: cs => if looksLikeNumber cs then word arg else unknown arg
  | _ => word arg

end Argument

structure Settings where
  difficulty : Option Score := none
  maxExplosions : Option UInt16 := none
  fateCount : Option UInt16 := none
  seed : Option UInt64 := none
  words : List String := []
  deriving DecidableEq

/-- What a whole command line asks for. -/
inductive Command where
  | run (o : Settings)
  | help
  | version
  deriving DecidableEq

inductive ArgumentError where
  | unknown (text : String)
  | repeated (s : Setting)
  | missingValue (s : Setting)
  | invalidValue (s : Setting) (value : String)
  deriving DecidableEq

def ArgumentError.message : ArgumentError → String
  | unknown text => "unexpected argument " ++ text
  | repeated s => "--" ++ s.name ++ " is given more than once"
  | missingValue s => "--" ++ s.name ++ " needs a value"
  | invalidValue s value => "--" ++ s.name ++ " cannot be " ++ value

namespace Settings

/-- Reads the value of an option that may not have one yet. -/
def fill {α : Type} (s : Setting) (old : Option α) (value : String)
    (read? : List Char → Option α) : Except ArgumentError (Option α) :=
  if old.isSome then .error (.repeated s)
  else
    match read? value.toList with
    | some a => .ok (some a)
    | none => .error (.invalidValue s value)

def readScore? (cs : List Char) : Option Score :=
  (Text.Decimal.signed? Int64.minValue.toInt Int64.maxValue.toInt cs).map Int64.ofInt

def readCount? (cs : List Char) : Option UInt16 :=
  (Text.Decimal.signed? 0 (UInt16.size - 1) cs).map fun n => UInt16.ofNat n.toNat

def readSeed? (cs : List Char) : Option UInt64 :=
  (Text.Decimal.unsigned? (UInt64.size - 1) cs).map UInt64.ofNat

def set (o : Settings) (s : Setting) (value : String) : Except ArgumentError Settings :=
  match s with
  | .difficulty => return { o with difficulty := ← fill s o.difficulty value readScore? }
  | .maxExplosions => return { o with maxExplosions := ← fill s o.maxExplosions value readCount? }
  | .fateCount => return { o with fateCount := ← fill s o.fateCount value readCount? }
  | .seed => return { o with seed := ← fill s o.seed value readSeed? }

def addWords (o : Settings) (words : List String) : Settings :=
  { o with words := o.words ++ words }

/-- What is asked for by arguments that follow the settings `o`. After a separator all arguments are
words. -/
def read (o : Settings) : List String → Except ArgumentError Command
  | [] => .ok (.run o)
  | arg :: rest =>
    match Argument.ofString arg with
    | .word text => read (o.addWords [text]) rest
    | .setting s (some value) => do read (← o.set s value) rest
    | .setting s none =>
      match rest with
      | [] => .error (.missingValue s)
      | value :: rest =>
        match Argument.ofString value with
        | .word text => do read (← o.set s text) rest
        | _ => .error (.missingValue s)
    | .help => .ok .help
    | .version => .ok .version
    | .separator => .ok (.run (o.addWords rest))
    | .unknown text => .error (.unknown text)

def ofArguments (args : List String) : Except ArgumentError Command :=
  read {} args

def engine (o : Settings) : Engine :=
  let e := match o.maxExplosions with
    | some count => Engine.withMaxExplosions {} count
    | none => {}
  match o.fateCount with
  | some count => e.withFateCount count
  | none => e

end Settings

end TabletopDice.CommandLine
