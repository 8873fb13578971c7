import CaseCover.Text

/-!
# Paths

File names with `/` between components. The operations are textual: they never ask whether a file
exists. `clean` gives the shortest name for the same path by dropping empty components and `.`, and
by letting `..` cancel the component before it.
-/

namespace CaseCover.Path

/-- The separator of components. -/
def separator : UInt8 := 0x2F

/-- A path is absolute when it starts with a separator. -/
def isAbs (p : Text) : Bool := p.head? == some separator

/-- The components of a path, empty ones included. -/
def components (p : Text) : List Text := Text.splitOn [separator] p

/-- One component added to a cleaned stack, last component first. In a rooted path `..` at the top
stays there. -/
def push (rooted : Bool) (stack : List Text) (c : Text) : List Text :=
  if c.isEmpty || c == utf8 "." then stack
  else if c == utf8 ".." then
    match stack with
    | [] => if rooted then [] else [c]
    | top :: below => if top == utf8 ".." then c :: stack else below
  else c :: stack

/-- The components of the cleaned path. -/
def cleanComponents (p : Text) : List Text :=
  ((components p).foldl (push (isAbs p)) []).reverse

/-- The shortest path equivalent to the given one; `.` for an empty result. -/
def clean (p : Text) : Text :=
  let body := Text.join [separator] (cleanComponents p)
  if isAbs p then separator :: body else if body.isEmpty then "." else body

/-- Joins non-empty path elements and cleans the result; empty when all are empty. -/
def join (elements : List Text) : Text :=
  let used := elements.filter fun e => !e.isEmpty
  if used.isEmpty then [] else clean (Text.join [separator] used)

/-- The path up to and including its last separator, and the rest. -/
def split (p : Text) : Text × Text :=
  let file := (p.reverse.takeWhile (· ≠ separator)).reverse
  (p.take (p.length - file.length), file)

/-- The last component; trailing separators are dropped first. -/
def base (p : Text) : Text :=
  if p.isEmpty then "."
  else
    let trimmed := (p.reverse.dropWhile (· == separator)).reverse
    if trimmed.isEmpty then [separator] else (split trimmed).2

/-- All but the last component, cleaned. -/
def dir (p : Text) : Text := clean (split p).1

/-- The extension: from the last dot of the last component on, empty when there is none. -/
def ext (p : Text) : Text :=
  let file := (split p).2
  if file.contains 0x2E then 0x2E :: (file.reverse.takeWhile (· ≠ 0x2E)).reverse else []

/-- Drops the common start of two lists of components. -/
def dropCommon : List Text → List Text → List Text × List Text
  | a :: as, b :: bs => if a == b then dropCommon as bs else (a :: as, b :: bs)
  | as, bs => (as, bs)

/-- A path that leads from `base` to `target`, when the texts alone tell one. -/
def rel (base target : Text) : Option Text :=
  let b := clean base
  let t := clean target
  if b == t then some "."
  else if isAbs b != isAbs t then none
  else
    let bs := if b == utf8 "." then [] else cleanComponents b
    let ts := if t == utf8 "." then [utf8 "."] else cleanComponents t
    let (bs, ts) := dropCommon bs ts
    if bs.head? == some (utf8 "..") then none
    else some (Text.join [separator] (List.replicate bs.length (utf8 "..") ++ ts))

/-- The path made absolute against a working directory. -/
def absolute (cwd p : Text) : Text := if isAbs p then clean p else join [cwd, p]

end CaseCover.Path
