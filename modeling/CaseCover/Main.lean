import CaseCover.CommandLine

/-!
# The program

Reads the files below the module's directory, runs the command line on them, and carries out what
it says: changed files are written, the text is printed, and the exit code is returned. Everything
that is decided is decided by `CommandLine.run`.
-/

namespace CaseCover.Main

/-- The bytes of a text. -/
def bytesOf (t : Text) : ByteArray := ⟨t.toArray⟩

/-- The text of a name. -/
def nameOf (t : Text) : String := Text.toStringLossy t

/-- Reads what lies at a path, links followed. What cannot be read counts as an empty file. -/
partial def readNode (path : String) : IO FileNode := do
  let place ← try IO.FS.realPath path catch _ => return .file []
  if ← place.isDir then
    let entries ← place.readDir
    let nodes ← entries.toList.mapM fun e => do
      return (utf8 e.fileName, ← readNode (path ++ "/" ++ e.fileName))
    return .dir (nodes.mergeSort fun a b => Text.lessEq a.1 b.1)
  else
    try return .file (← IO.FS.readBinFile path).toList
    catch _ => return .file []

/-- A directory has a module file. -/
def hasModule (dir : String) : IO Bool := do
  try
    let _ ← IO.FS.readBinFile (dir ++ "/" ++ nameOf ModuleFile.fileName)
    return true
  catch _ => return false

/-- The nearest directory with a module file, looking at `dir` and above it; `start` if there is
none. -/
partial def treeRoot (start dir : String) : IO String := do
  if ← hasModule dir then return dir
  let above := nameOf (Path.dir (utf8 dir))
  if above == dir then return start
  treeRoot start above

/-- The files that the program works on. -/
def readTree : IO FileTree := do
  let cwd := (← IO.currentDir).toString
  let root ← treeRoot cwd cwd
  let t := FileTree.empty (utf8 cwd)
  return t.put (utf8 root) (← readNode root)

/-- Writes the files that are new or have new content. -/
def writeChanges (before after : FileTree) : IO Unit := do
  for (path, content) in after.files do
    if before.files.lookup path != some content then
      IO.FS.writeBinFile (nameOf path) (bytesOf content)

end CaseCover.Main

open CaseCover in
/-- Runs the program. -/
def main (args : List String) : IO UInt32 := do
  let tree ← Main.readTree
  let outcome := CommandLine.run tree (args.map utf8)
  Main.writeChanges tree outcome.tree
  let out ← IO.getStdout
  out.write (Main.bytesOf outcome.stdout)
  out.flush
  for l in outcome.logs do
    IO.eprintln (Main.nameOf l.text)
  return UInt32.ofNat outcome.exit
