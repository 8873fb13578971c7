import CaseCover.FileTree
import CaseCover.Log
import CaseCover.Report
import CaseCover.Report.Json

/-!
# Printing issues

Issues are printed with the lines of their files, file by file in the order of the names, or as
JSON, which may go to a file instead. A file that cannot be read is noted in the log and left out.
-/

namespace CaseCover

/-- The lines of a source file; what follows the last line break is a line, too. -/
def FileTree.readLines (t : FileTree) (p : Text) : Except PathError (List Text) := do
  return Text.splitOn "\n" (← t.content p)

/-- Where issues are printed: as text, as JSON, or as JSON into a file. -/
inductive Output where
  | text
  | json
  | jsonFile (path : Text)
deriving DecidableEq

/-- The output that options ask for; a file is only written for JSON. -/
def Output.ofOptions (json : Bool) (path : Text) : Output :=
  if !json then .text else if path.isEmpty then .json else .jsonFile path

/-- The output file could not be written. -/
structure PrintError where
  cause : PathError
deriving DecidableEq

/-- The message of the fault. -/
def PrintError.message (e : PrintError) : Text :=
  utf8 "error writing JSON output file: " ++ e.cause.message

/-- What printing does: the printed text, the files afterwards, log entries, and the fault. -/
structure Printed where
  stdout : Text
  tree : FileTree
  logs : List Log
  error : Option PrintError

namespace Report

/-- The text of the issues of one file, or the note that it cannot be read. -/
def fileText (t : FileTree) (name : Text) (is : List Issue) : Except Log Text :=
  match t.readLines name with
  | .ok lines => .ok (Report.issues false lines is)
  | .error _ => .error ⟨.error, "Error reading source file", .file name⟩

/-- Prints issues. -/
def print (t : FileTree) (o : Output) (is : List Issue) : Printed :=
  match o with
  | .json => ⟨Json.issues is ++ [0x0A], t, [], none⟩
  | .jsonFile path =>
    match t.writeFile path (Json.issues is) with
    | .ok t => ⟨[], t, [], none⟩
    | .error e => ⟨[], t, [], some ⟨e⟩⟩
  | .text =>
    let parts := (Issue.byFile is).map fun (name, is) => fileText t name is
    ⟨parts.flatMap fun p => match p with | .ok x => x | .error _ => [], t,
      parts.filterMap fun p => match p with | .ok _ => none | .error l => some l, none⟩

end Report

end CaseCover
