import CaseCover.Analysis
import CaseCover.CommandLine.Duration

/-!
# Flags

The flags of the command line and how arguments set them. A long flag is written `--name`, a short
one `-n`; several short ones may share a dash. The value of a flag follows after `=`, directly
behind a short flag, or as the next argument. A flag for a truth value needs none. Flags may stand
between other arguments; `--` ends them.
-/

namespace CaseCover

/-- A flag. -/
inductive Flag where
  | config
  | timeout
  | verbose
  | help
  | ignore
  | ignorePaths
  | json
  | output
  | tests
  | watch
  | noDescriptions
deriving DecidableEq

/-- What the flags say, and which of them were given. The timeout is in nanoseconds. -/
structure Settings where
  given : List Flag
  config : Text
  timeout : Int
  verbose : Bool
  help : Bool
  ignore : Text
  ignorePaths : Text
  json : Bool
  output : Text
  tests : Bool
  watch : Bool
  noDescriptions : Bool
deriving DecidableEq

/-- The settings without any flags: five minutes, and nothing else. -/
def Settings.default : Settings :=
  ⟨[], [], 300000000000, false, false, [], [], false, [], false, false, false⟩

namespace Flag

/-- The long name. -/
def name : Flag → Text
  | .config => "config"
  | .timeout => "timeout"
  | .verbose => "verbose"
  | .help => "help"
  | .ignore => "ignore"
  | .ignorePaths => "ignore-paths"
  | .json => "json"
  | .output => "output"
  | .tests => "tests"
  | .watch => "watch"
  | .noDescriptions => "no-descriptions"

/-- The letter of the short form. -/
def letter? : Flag → Option UInt8
  | .config => some 0x63
  | .help => some 0x68
  | .output => some 0x6F
  | _ => none

/-- The word for the value in the help text; a truth value has none. -/
def valueWord : Flag → Text
  | .config | .ignore | .ignorePaths | .output => "string"
  | .timeout => "duration"
  | _ => []

/-- A flag for a truth value. -/
def isSwitch (f : Flag) : Bool := f.valueWord.isEmpty

/-- The settings after a flag was given with a value, if the value fits. -/
def set (f : Flag) (value : Text) (s : Settings) : Option Settings :=
  match f with
  | .config => some { s with config := value }
  | .timeout => (Duration.parse value).map fun d => { s with timeout := d }
  | .verbose => (truthValue? value).map fun b => { s with verbose := b }
  | .help => (truthValue? value).map fun b => { s with help := b }
  | .ignore => some { s with ignore := value }
  | .ignorePaths => some { s with ignorePaths := value }
  | .json => (truthValue? value).map fun b => { s with json := b }
  | .output => some { s with output := value }
  | .tests => (truthValue? value).map fun b => { s with tests := b }
  | .watch => (truthValue? value).map fun b => { s with watch := b }
  | .noDescriptions => (truthValue? value).map fun b => { s with noDescriptions := b }

/-- The flag with a long name. -/
def ofName? (known : List Flag) (name : Text) : Option Flag := known.find? fun f => f.name == name

/-- The flag with a letter. -/
def ofLetter? (known : List Flag) (c : UInt8) : Option Flag :=
  known.find? fun f => f.letter? == some c

end Flag

/-- Why arguments cannot be read. -/
inductive FlagFault where
  | unknown (arg : Text)
  | malformed (arg : Text)
  | missingValue (f : Flag)
  | badValue (f : Flag) (value : Text)
deriving DecidableEq

/-- A flag with its value. -/
abbrev FlagValue := Flag × Text

/-- What an argument is: something that is no flag, the end of the flags, flags with values, or
flags of which the last waits for the next argument as its value. -/
inductive Argument where
  | operand
  | endOfFlags
  | flags (given : List FlagValue)
  | waiting (given : List FlagValue) (last : Flag)

namespace Argument

/-- The value of a switch that is given without one. -/
def switchedOn : Text := "true"

/-- Reads a long flag without its dashes. -/
def ofLong (known : List Flag) (t : Text) : Except FlagFault Argument :=
  if t.isEmpty || t.head? == some 0x2D || t.head? == some 0x3D then .error (.malformed t)
  else
    let name := t.takeWhile (· ≠ 0x3D)
    match Flag.ofName? known name with
    | none => .error (.unknown name)
    | some f =>
      if name.length < t.length then .ok (.flags [(f, t.drop (name.length + 1))])
      else if f.isSwitch then .ok (.flags [(f, switchedOn)])
      else .ok (.waiting [] f)

/-- Reads short flags without their dash. `given` has those before them. -/
def ofShort (known : List Flag) (given : List FlagValue) : Text → Except FlagFault Argument
  | [] => .ok (.flags given)
  | c :: rest =>
    match Flag.ofLetter? known c with
    | none => .error (.unknown [c])
    | some f =>
      if 1 < rest.length && rest.head? == some 0x3D then .ok (.flags (given ++ [(f, rest.drop 1)]))
      else if f.isSwitch then ofShort known (given ++ [(f, switchedOn)]) rest
      else if !rest.isEmpty then .ok (.flags (given ++ [(f, rest)]))
      else .ok (.waiting given f)

/-- Reads an argument. What starts like a flag of a test program counts as nothing. -/
def read (known : List Flag) (arg : Text) : Except FlagFault Argument :=
  match arg with
  | 0x2D :: 0x2D :: [] => .ok .endOfFlags
  | 0x2D :: 0x2D :: t => ofLong known t
  | 0x2D :: t =>
    if t.isEmpty then .ok .operand
    else if Text.startsWith t "test." then .ok (.flags [])
    else ofShort known [] t
  | _ => .ok .operand

end Argument

namespace Settings

/-- The settings after flags were given one after the other. -/
def apply (s : Settings) : List FlagValue → Except FlagFault Settings
  | [] => .ok s
  | (f, v) :: rest =>
    match f.set v s with
    | some s => apply { s with given := f :: s.given } rest
    | none => .error (.badValue f v)

/-- Reads arguments: the settings after them, and the operands. -/
def read (known : List Flag) (s : Settings) : List Text → Except FlagFault (Settings × List Text)
  | [] => .ok (s, [])
  | arg :: rest => do
    match ← Argument.read known arg with
    | .operand =>
      let (s, operands) ← read known s rest
      return (s, arg :: operands)
    | .endOfFlags => return (s, rest)
    | .flags given => read known (← s.apply given) rest
    | .waiting given last =>
      match rest with
      | [] => throw (.missingValue last)
      | value :: rest => read known (← s.apply (given ++ [(last, value)])) rest

end Settings

end CaseCover
