import CaseCover.Text.Space

/-!
# Assembly

A file in assembly that belongs to a package has to be accepted by the assembler before the package
is built. Here a file is read line by line: comments and lines for the preprocessor are left out, and
what remains is an instruction with operands, perhaps behind labels. The start of a function needs the
name of its symbol and the size of its frame. Other instructions are told by their names, as far as
they are in common use; their operands are not judged.
-/

namespace CaseCover

namespace Assembly

/-- A character of names. -/
def isNameByte (b : UInt8) : Bool :=
  Text.isDigit b || (0x41 ≤ b && b ≤ 0x5A) || (0x61 ≤ b && b ≤ 0x7A) || b == 0x5F || b ≥ 0x80

/-- Instructions in common use. -/
def instructions : List Text :=
  ["RET", "NOP", "NOOP", "HLT", "INT", "UNDEF", "JMP", "CALL", "SYSCALL", "PUSHQ", "POPQ", "BYTE",
   "WORD", "LONG", "QUAD", "MOVB", "MOVW", "MOVL", "MOVQ", "MOVO", "MOVOU", "MOVSS", "MOVSD", "MOVBLZX",
   "MOVBLSX", "MOVBQZX", "MOVBQSX", "MOVWLZX", "MOVWQZX", "MOVLQSX", "MOVLQZX", "LEAL", "LEAQ", "ADDB",
   "ADDW", "ADDL", "ADDQ", "ADDSS", "ADDSD", "ADCQ", "SUBB", "SUBL", "SUBQ", "SUBSD", "SBBQ", "IMULL",
   "IMULQ", "MULL", "MULQ", "MULSD", "IDIVQ", "DIVL", "DIVQ", "DIVSD", "SQRTSD", "INCL", "INCQ", "DECL",
   "DECQ", "NEGL", "NEGQ", "NOTL", "NOTQ", "ANDB", "ANDL", "ANDQ", "ORB", "ORL", "ORQ", "XORB", "XORL",
   "XORQ", "XORPS", "SHLL", "SHLQ", "SHRL", "SHRQ", "SARL", "SARQ", "ROLL", "ROLQ", "CMPB", "CMPW",
   "CMPL", "CMPQ", "TESTB", "TESTL", "TESTQ", "XCHGL", "XCHGQ", "CMPXCHGQ", "LOCK", "CPUID", "RDTSC",
   "PAUSE", "MFENCE", "JEQ", "JNE", "JLT", "JLE", "JGT", "JGE", "JHI", "JHS", "JLO", "JLS", "JCC", "JCS",
   "JMI", "JPL", "JZ", "JNZ", "SETEQ", "SETNE", "CMOVQEQ", "CMOVQNE", "BSFQ", "BSRQ", "BSWAPL", "BSWAPQ",
   "POPCNTQ", "CQO", "CDQ", "CLD", "REP", "STOSQ", "MOVSB", "MOVSQ", "PCDATA", "FUNCDATA", "PCALIGN",
   "NO_LOCAL_POINTERS", "GO_ARGS"].map utf8

/-- A symbol: a name with points in it, before the mark for static places. -/
def isSymbol (t : Text) : Bool :=
  match Text.stripTail? "(SB)" t with
  | some name => !name.isEmpty && name.all fun b => isNameByte b || (utf8 ".<>+/").contains b
  | none => false

/-- A size: a number behind a dollar sign, perhaps with another one behind a dash. -/
def isSize (t : Text) : Bool :=
  match Text.stripLead? "$" t with
  | some rest =>
    let numbers := Text.splitOn "-" ((Text.stripLead? "-" rest).getD rest)
    numbers.length ≤ 2 && numbers.all fun n => !n.isEmpty && n.all isNameByte
  | none => false

/-- An operand of a pseudo instruction that defines a symbol. -/
def isFlag (t : Text) : Bool := !t.isEmpty && t.all fun b => isNameByte b || (utf8 "$|+() ").contains b

/-- A pseudo instruction or an instruction with its operands. -/
def isStatement (word : Text) (operands : List Text) : Bool :=
  if word == utf8 "TEXT" then
    match operands with
    | [symbol, size] => isSymbol symbol && isSize size
    | [symbol, flags, size] => isSymbol symbol && isFlag flags && isSize size
    | _ => false
  else if word == utf8 "GLOBL" then
    match operands with
    | [symbol, size] => isSymbol symbol && isSize size
    | [symbol, flags, size] => isSymbol symbol && isFlag flags && isSize size
    | _ => false
  else if word == utf8 "DATA" then operands.length == 2
  else instructions.contains word && operands.all fun o => !o.isEmpty

/-- A line without a comment at its end. -/
def withoutComment (line : Text) : Text := ((Text.cutAt? "//" line).map (·.1)).getD line

/-- A statement without the labels before it. -/
def withoutLabels : Nat → Text → Text
  | 0, t => t
  | n + 1, t =>
    let name := t.takeWhile isNameByte
    match t.drop name.length with
    | 0x3A :: rest => if name.isEmpty then t else withoutLabels n (Text.trim rest)
    | _ => t

/-- One part of a line is empty or a statement. -/
def isPart (part : Text) : Bool :=
  let t := withoutLabels part.length (Text.trim part)
  let word := t.takeWhile isNameByte
  let rest := Text.trim (t.drop word.length)
  t.isEmpty || isStatement word (if rest.isEmpty then [] else (Text.splitOn "," rest).map Text.trim)

/-- A line is for the preprocessor, or has statements only. -/
def isLine (line : Text) : Bool :=
  let t := Text.trim (withoutComment line)
  Text.startsWith t "#" || (Text.splitOn ";" t).all isPart

/-- A file is accepted. -/
def isValid (content : Text) : Bool := (Text.splitOn "\n" content).all isLine

end Assembly

end CaseCover
