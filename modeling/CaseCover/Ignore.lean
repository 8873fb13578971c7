import CaseCover.Path.Glob

/-!
# Ignored paths

Issues in files that match an ignored pattern are dropped. A pattern is tried on the file name, on
the name relative to the root directory, and on the base name; it matches as a glob, or as a
directory that the name lies in.
-/

namespace CaseCover.Ignore

/-- The patterns after one more; an empty pattern is not kept. -/
def add (patterns : List Text) (pattern : Text) : List Text :=
  if pattern.isEmpty then patterns else patterns ++ [Path.clean pattern]

/-- A name lies below a directory. -/
def isBelow (dir name : Text) : Bool := Text.startsWith name (dir ++ [Path.separator])

/-- A pattern matches a name. -/
def fits (pattern name : Text) : Bool := Path.globs pattern name || isBelow pattern name

/-- The name of a file relative to the root directory. It stays as it is when there is no root or
when the relative name starts with two dots. -/
def relativeName (cwd root filename : Text) : Text :=
  if root.isEmpty then filename
  else
    match Path.rel (Path.absolute cwd root) filename with
    | some r => if Text.startsWith r ".." then filename else r
    | none => filename

/-- One of the patterns covers a file. -/
def covers (cwd root : Text) (patterns : List Text) (filename : Text) : Bool :=
  !filename.isEmpty &&
    patterns.any fun p =>
      [filename, relativeName cwd root filename, Path.base filename].any (fits p)

end CaseCover.Ignore
