import CaseCover.CommandLine.Call

/-!
# Completions

How a command line can go on: the choices for its last word, which is not complete, and whether the
names of files are choices, too. The words before it are read as if they were a call. A word that
starts with a dash becomes a flag that has not been given; the first word of a command may become
the name of a command below it. There are no choices for the values of flags.
-/

namespace CaseCover

/-- A choice for a word, and what it is. -/
structure Choice where
  word : Text
  about : Text
deriving DecidableEq

/-- The choices for a word. -/
structure Suggestions where
  choices : List Choice
  files : Bool
  described : Bool
deriving DecidableEq

namespace Suggestions

/-- The lines that a shell reads: a choice on each, and at last a code for what else is possible. -/
def text (s : Suggestions) : Text :=
  (s.choices.flatMap fun c =>
    c.word ++ (if s.described then 0x09 :: c.about else []) ++ utf8 "\n") ++
    (if s.files then utf8 ":0\n" else utf8 ":4\n")

end Suggestions

namespace CommandLine

/-! ## Flags that wait for a value -/

/-- What the last words say about a flag: the flag whose value is to be completed if there is one,
the words that can be read, the word to complete, and that a flag is named that does not exist. -/
structure Waiting where
  flag : Option Flag
  words : List Text
  last : Text
  unknown : Bool

/-- The flag that a name or a letter stands for. -/
def flagNamed? (known : List Flag) (name : Text) : Option Flag :=
  match name with
  | [letter] => Flag.ofLetter? known letter
  | name => Flag.ofName? known name

/-- The name of a flag, or the last of several letters behind one dash. -/
def flagName (t : Text) : Text :=
  if Text.startsWith t "--" then t.drop 2 else t.drop (t.length - 1)

/-- The word is a flag and not a dash or two of them. -/
def isFlagWord (t : Text) : Bool :=
  (Text.startsWith t "--" && 3 ≤ t.length) ||
    (Text.startsWith t "-" && !Text.startsWith t "--" && 2 ≤ t.length)

/-- Finds the flag that the last word, or the value behind its equals sign, belongs to. -/
def Waiting.of (known : List Flag) (words : List Text) (last : Text) : Waiting :=
  if Text.startsWith last "-" && !last.contains 0x3D then ⟨none, words, last, false⟩
  else
    let front := last.takeWhile (· ≠ 0x3D)
    let named := if Text.startsWith last "-" then flagName front else []
    let value := if Text.startsWith last "-" then last.drop (front.length + 1) else last
    if !named.isEmpty then
      match flagNamed? known named with
      | some f => ⟨some f, words, value, false⟩
      | none => ⟨none, words, last, true⟩
    else
      match words.getLast? with
      | none => ⟨none, words, value, false⟩
      | some previous =>
        if !isFlagWord previous || previous.contains 0x3D then ⟨none, words, value, false⟩
        else
          match flagNamed? known (flagName previous) with
          | none => ⟨none, words, last, true⟩
          | some f =>
            if f.isSwitch && !Text.startsWith last "-" then ⟨none, words, value, false⟩
            else ⟨some f, words.dropLast, value, false⟩

/-! ## Choices -/

/-- The choices of flags for a word: those that have not been given, by name and by letter. -/
def flagChoices (c : Command) (given : List Flag) (last : Text) : List Choice :=
  let inherited := if c = .root then [] else Command.globalFlags
  let unset := (inherited ++ c.ownFlags).filter fun f => !given.contains f
  unset.flatMap fun f =>
    let forms := (utf8 "--" ++ f.name) :: (f.letter?.map fun b => [0x2D, b]).toList
    (forms.filter fun t => last.isPrefixOf t).map fun t => ⟨t, c.flagUsage f⟩

/-- The choices of commands below a command. -/
def commandChoices (c : Command) (last : Text) : List Choice :=
  (c.children.filter fun d => last.isPrefixOf d.name).map fun d => ⟨d.name, d.short⟩

/-- The choices that a command has for its operands, and whether files are choices. -/
def operandChoices (c : Command) (operands : List Text) (last : Text) (files : Bool) :
    List Choice × Bool :=
  match c with
  | .help =>
    match topic? true .root (plainWords operands) with
    | some d => (commandChoices d last, false)
    | none => ([], false)
  | .completion | .script _ => ([], false)
  | _ => ([], files)

/-- The choices once the words have been read. `named` tells that flags can be completed. -/
def choices (c : Command) (given : List Flag) (operands : List Text) (w : Waiting) (named : Bool) :
    List Choice × Bool :=
  let isFlagName := w.flag.isNone && Text.startsWith w.last "-" && !w.last.contains 0x3D && named
  if isFlagName then (flagChoices c given w.last, false)
  else
    let commands := w.flag.isNone && operands.isEmpty && !c.children.isEmpty
    let below := if commands then commandChoices c w.last else []
    if w.flag.isSome && named then (below, true)
    else
      let (more, files) := operandChoices c operands w.last (!commands)
      (below ++ more, files)

/-- How a command line with the given words can go on from its last word. -/
def suggest (described : Bool) (s : Settings) (words : List Text) (last : Text) : Suggestions :=
  match locate true words.length .root s words with
  | .error _ => ⟨[], true, described⟩
  | .ok ⟨.suggest described, s, rest⟩ =>
    let (found, files) := choices (.suggest described) s.given rest ⟨none, rest, last, false⟩ true
    ⟨found, files, described⟩
  | .ok ⟨c, s, rest⟩ =>
    let w := Waiting.of c.flags rest last
    match s.read c.flags w.words, s.read c.flags (w.words ++ [utf8 "--"]) with
    | .ok (s, operands), .ok (_, more) =>
      let named := more.length == operands.length
      if w.unknown && named then ⟨[], true, described⟩
      else if s.given.contains .help then ⟨[], false, described⟩
      else
        let (found, files) := choices c s.given operands w named
        ⟨found, files, described⟩
    | _, _ => ⟨[], true, described⟩

end CommandLine

end CaseCover
