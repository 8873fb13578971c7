import CaseCover.Source.Constraint

/-!
# The target

Packages are loaded for one target: Linux on a 64 bit x86 machine, without code in other languages.
A file whose name ends in the name of another system or machine is not meant for it.
-/

namespace CaseCover

namespace Target

/-- The names of operating systems. -/
def systems : List Text :=
  ["aix", "android", "darwin", "dragonfly", "freebsd", "hurd", "illumos", "ios", "js", "linux",
   "nacl", "netbsd", "openbsd", "plan9", "solaris", "wasip1", "windows", "zos"].map utf8

/-- The names of machines. -/
def machines : List Text :=
  ["386", "amd64", "amd64p32", "arm", "armbe", "arm64", "arm64be", "loong64", "mips", "mipsle",
   "mips64", "mips64le", "mips64p32", "mips64p32le", "ppc", "ppc64", "ppc64le", "riscv", "riscv64",
   "s390", "s390x", "sparc", "sparc64", "wasm"].map utf8

/-- The newest release of the language whose tag holds. -/
def release : Nat := 22

/-- The tags of system, machine and tools; those with a point tell the level of the machine and what
the tools try out. -/
def tags : List Text :=
  ["linux", "amd64", "unix", "gc", "amd64.v1", "goexperiment.regabiwrappers",
   "goexperiment.regabiargs", "goexperiment.coverageredesign", "goexperiment.allocheaders",
   "goexperiment.exectracer2"].map utf8

/-- A tag of the target. -/
def hasTag (name : Text) : Bool :=
  tags.contains name ||
    (List.range release).any fun n => utf8 "go1." ++ Text.ofNat (n + 1) == name

/-- The end of a file name does not name another target. Only what follows the first underscore
counts. -/
def fitsName (name : Text) : Bool :=
  let stem := name.takeWhile (· ≠ 0x2E)
  let parts := (Text.splitOn "_" stem).drop 1
  let parts := if parts.getLast? == some (utf8 "test") then parts.dropLast else parts
  match parts.reverse with
  | last :: before :: _ =>
    if systems.contains before && machines.contains last then hasTag last && hasTag before
    else !(systems.contains last || machines.contains last) || hasTag last
  | [last] => !(systems.contains last || machines.contains last) || hasTag last
  | [] => true

end Target

end CaseCover
