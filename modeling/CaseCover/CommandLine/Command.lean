import CaseCover.CommandLine.Flag
import CaseCover.Text.Space

/-!
# Commands

The commands of the program, the flags that each of them takes, and their help texts.
-/

namespace CaseCover

/-- A shell for which a completion script exists. -/
inductive Shell where
  | bash
  | fish
  | powershell
  | zsh
deriving DecidableEq

/-- A command; `root` is the program itself. The scripts of shells call `suggest` to learn how a
command line can go on, with or without descriptions of the choices. -/
inductive Command where
  | root
  | init
  | lint
  | help
  | completion
  | script (shell : Shell)
  | suggest (described : Bool)
deriving DecidableEq

/-- The name of a shell. -/
def Shell.name : Shell → Text
  | .bash => "bash"
  | .fish => "fish"
  | .powershell => "powershell"
  | .zsh => "zsh"

namespace Command

/-- The name of the program. -/
def program : Text := "totality"

/-- The word that calls a command. -/
def name : Command → Text
  | .root => program
  | .init => "init"
  | .lint => "lint"
  | .help => "help"
  | .completion => "completion"
  | .script s => s.name
  | .suggest _ => "__complete"

/-- The name with what may follow it. -/
def use : Command → Text
  | .root => program ++ utf8 " [paths...]"
  | .lint => "lint [paths...]"
  | .help => "help [command]"
  | c => c.name

/-- The words from the program to a command. -/
def callPath : Command → Text
  | .root => program
  | .script s => program ++ utf8 " completion " ++ s.name
  | c => program ++ utf8 " " ++ c.name

/-- The commands below a command, in the order of their names. -/
def children : Command → List Command
  | .root => [.completion, .help, .init, .lint]
  | .completion => [.script .bash, .script .fish, .script .powershell, .script .zsh]
  | _ => []

/-- The commands that no help text shows, with the words that call them. -/
def hidden : List (Text × Command) :=
  [("__complete", .suggest true), ("__completeNoDesc", .suggest false)]

/-- The command below a command that a word calls. Hidden ones are called only where `withHidden`. -/
def child? (withHidden : Bool) (c : Command) (word : Text) : Option Command :=
  match c.children.find? fun d => d.name == word with
  | some d => some d
  | none => if withHidden && c = .root then hidden.lookup word else none

/-- A command that does something by itself. -/
def isRunnable : Command → Bool
  | .completion => false
  | _ => true

/-! ## Flags -/

/-- The flags that all commands take. -/
def globalFlags : List Flag := [.config, .timeout, .verbose]

/-- The flags of a command in the order of their names. -/
def ownFlags : Command → List Flag
  | .root => [.config, .help, .timeout, .verbose]
  | .lint => [.help, .ignore, .ignorePaths, .json, .output, .tests, .watch]
  | .script _ => [.help, .noDescriptions]
  | _ => [.help]

/-- The flags that a command knows when it runs. -/
def flags (c : Command) : List Flag :=
  match c with
  | .root => c.ownFlags
  | c => c.ownFlags ++ globalFlags

/-! ## Help -/

/-- The line about a command. -/
def short : Command → Text
  | .root => "totality - reports switch statements and if chains that miss enum values"
  | .init => "Initialize a new linter configuration file"
  | .lint => "Report non-exhaustive switch statements and if chains"
  | .help => "Help about any command"
  | .completion => "Generate the autocompletion script for the specified shell"
  | .script s => utf8 "Generate the autocompletion script for " ++ s.name
  | .suggest _ => "Request shell completion choices for the specified command-line"

/-- How the script of a shell is put to use. -/
def scriptGuide : Shell → Text
  | .bash => "Generate the autocompletion script for the bash shell.

This script depends on the 'bash-completion' package.
If it is not installed already, you can install it via your OS's package manager.

To load completions in your current shell session:

\tsource <(totality completion bash)

To load completions for every new session, execute once:

#### Linux:

\ttotality completion bash > /etc/bash_completion.d/totality

#### macOS:

\ttotality completion bash > $(brew --prefix)/etc/bash_completion.d/totality

You will need to start a new shell for this setup to take effect."
  | .fish => "Generate the autocompletion script for the fish shell.

To load completions in your current shell session:

\ttotality completion fish | source

To load completions for every new session, execute once:

\ttotality completion fish > ~/.config/fish/completions/totality.fish

You will need to start a new shell for this setup to take effect."
  | .powershell => "Generate the autocompletion script for powershell.

To load completions in your current shell session:

\ttotality completion powershell | Out-String | Invoke-Expression

To load completions for every new session, add the output of the above command
to your powershell profile."
  | .zsh => "Generate the autocompletion script for the zsh shell.

If shell completion is not already enabled in your environment you will need
to enable it.  You can execute the following once:

\techo \"autoload -U compinit; compinit\" >> ~/.zshrc

To load completions in your current shell session:

\tsource <(totality completion zsh)

To load completions for every new session, execute once:

#### Linux:

\ttotality completion zsh > \"$\x7bfpath[1]\x7d/_totality\"

#### macOS:

\ttotality completion zsh > $(brew --prefix)/share/zsh/site-functions/_totality

You will need to start a new shell for this setup to take effect."

/-- The text about a command at the start of its help. -/
def about : Command → Text
  | .help => "Help provides help for any command in the application.
Simply type totality help [path to command] for full details."
  | .completion => "Generate the autocompletion script for totality for the specified shell.
See each sub-command's help for details on how to use the generated script."
  | .script s => scriptGuide s
  | c => c.short

/-- What a flag is for. -/
def flagUsage (c : Command) : Flag → Text
  | .config => "Path to the configuration file (default .totality.yaml)"
  | .timeout => "Set a timeout for the linter"
  | .verbose => "Enable verbose logging"
  | .help => utf8 "help for " ++ c.name
  | .ignore => "Comma-separated list of lint rules to ignore"
  | .ignorePaths => "Comma-separated list of paths to ignore"
  | .json => "Output issues in JSON format"
  | .output => "Output path (when using JSON)"
  | .tests => "Include test files"
  | .watch => "Lint again whenever a Go file changes"
  | .noDescriptions => "disable completion descriptions"

/-- What the help text says about the value of a flag that is not given. -/
def flagDefault : Flag → Text
  | .timeout => " (default 5m0s)"
  | _ => []

/-- How a flag is written. -/
def flagForm (f : Flag) : Text :=
  let lead := match f.letter? with
    | some c => utf8 "  -" ++ [c] ++ utf8 ", --"
    | none => "      --"
  lead ++ f.name ++ (if f.isSwitch then [] else 0x20 :: f.valueWord)

/-- A text filled up with blanks. -/
def padded (width : Nat) (t : Text) : Text := t ++ Text.repeated (width - t.length) 0x20

/-- The lines about flags: the forms, and three blanks after the longest of them the usages. -/
def flagLines (c : Command) (fs : List Flag) : Text :=
  let width := (fs.map fun f => (flagForm f).length).foldl max 0
  Text.join "\n" (fs.map fun f => padded (width + 3) (flagForm f) ++ c.flagUsage f ++ flagDefault f)

/-- The line that shows how a command is called. -/
def useLine (c : Command) : Text :=
  let line := match c with
    | .root => c.use
    | .script s => callPath .completion ++ utf8 " " ++ s.name
    | c => program ++ utf8 " " ++ c.use
  if c = .script .bash then line else line ++ utf8 " [flags]"

/-- The lines about the commands below a command. -/
def childLines (c : Command) : Text :=
  c.children.flatMap fun d => utf8 "\n  " ++ padded 11 d.name ++ utf8 " " ++ d.short

/-- How a command is used. -/
def usage (c : Command) : Text :=
  utf8 "Usage:" ++
  (if c.isRunnable then utf8 "\n  " ++ c.useLine else []) ++
  (if c.children.isEmpty then []
   else utf8 "\n  " ++ c.callPath ++ utf8 " [command]\n\nAvailable Commands:" ++ c.childLines) ++
  utf8 "\n\nFlags:\n" ++ c.flagLines c.ownFlags ++
  (if c = .root then [] else utf8 "\n\nGlobal Flags:\n" ++ c.flagLines globalFlags) ++
  (if c.children.isEmpty then []
   else utf8 "\n\nUse \"" ++ c.callPath ++
     utf8 " [command] --help\" for more information about a command.") ++
  utf8 "\n"

/-- The help text of a command. -/
def helpText (c : Command) : Text := c.about ++ utf8 "\n\n" ++ c.usage

end Command

end CaseCover
