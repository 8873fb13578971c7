import CaseCover.CommandLine.Command

/-!
# Calls

The command that arguments call. The words before the name of a command are flags for all commands;
a flag that is not known as a switch takes the next word along. The hidden commands can be called
only by the first word of all that is no flag.
-/

namespace CaseCover

/-- A called command with the settings from the flags before it, and the arguments after it. -/
structure Call where
  command : Command
  settings : Settings
  rest : List Text

namespace CommandLine

/-- A long or short flag takes the next word along, as far as its name tells. -/
def takesNext (arg : Text) : Bool :=
  let isSwitch := fun (f : Option Flag) => f.any Flag.isSwitch
  if arg.contains 0x3D then false
  else if Text.startsWith arg "--" then !isSwitch (Flag.ofName? Command.globalFlags (arg.drop 2))
  else Text.startsWith arg "-" && arg.length == 2 &&
    !isSwitch ((arg[1]?).bind (Flag.ofLetter? Command.globalFlags))

/-- The words that are neither flags nor taken along by them; `--` ends the search, and so does a
flag that would take the last word along. -/
def plainWords : List Text → List Text
  | [] => []
  | [arg] => if arg.isEmpty || Text.startsWith arg "-" then [] else [arg]
  | arg :: next :: rest =>
    if arg == utf8 "--" then []
    else if takesNext arg then if rest.isEmpty then [] else plainWords rest
    else if arg.isEmpty || Text.startsWith arg "-" then plainWords (next :: rest)
    else arg :: plainWords (next :: rest)

/-- The arguments up to the name of a command below `c`: the command, the arguments before it, and
those after it. `waiting` tells that the argument is taken along. The first other word that names no
command ends the search. -/
def nextCommand (withHidden : Bool) (c : Command) (waiting : Bool) (before : List Text) :
    List Text → Option (Command × List Text × List Text)
  | [] => none
  | arg :: rest =>
    if Text.startsWith arg "--" && !arg.contains 0x3D then
      nextCommand withHidden c (takesNext arg) (arg :: before) rest
    else if takesNext arg then nextCommand withHidden c true (arg :: before) rest
    else if waiting || (Text.startsWith arg "-" && 2 ≤ arg.length) then
      nextCommand withHidden c false (arg :: before) rest
    else (c.child? withHidden arg).map fun d => (d, before.reverse, rest)

/-- The command that arguments call below another one. The number bounds how many names are read. -/
def locate (withHidden : Bool) : Nat → Command → Settings → List Text → Except FlagFault Call
  | 0, c, s, args => .ok ⟨c, s, args⟩
  | fuel + 1, c, s, args =>
    match nextCommand withHidden c false [] args with
    | none => .ok ⟨c, s, args⟩
    | some (d, before, rest) => do
      let (s, _) ← s.read Command.globalFlags before
      locate withHidden fuel d s rest

/-- The command that help is asked for, if the words name one. -/
def topic? (withHidden : Bool) (c : Command) : List Text → Option Command
  | [] => some c
  | word :: rest =>
    match c.child? withHidden word with
    | some d => topic? withHidden d rest
    | none => if c = .root then none else some c

end CommandLine

/-- What the arguments of the program call. -/
def Call.ofArguments (args : List Text) : Except FlagFault Call :=
  let withHidden := (CommandLine.plainWords args).head?.any fun w => (Command.hidden.lookup w).isSome
  CommandLine.locate withHidden args.length .root Settings.default args

end CaseCover
