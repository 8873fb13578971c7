import CaseCover.Text.Printable

/-!
# Quoted text

A text inside double quotes, written so that every byte can be told: printable characters stand
for themselves, a quote and a backslash get a backslash, the usual control characters have letters,
and the rest is written in hexadecimal, byte by byte where the text is not valid UTF-8.
-/

namespace CaseCover.Text

/-- The letter of a control character with an escape of its own. -/
def controlLetter (n : Nat) : Option UInt8 :=
  match n with
  | 7 => some 0x61
  | 8 => some 0x62
  | 9 => some 0x74
  | 10 => some 0x6E
  | 11 => some 0x76
  | 12 => some 0x66
  | 13 => some 0x72
  | _ => none

/-- One character as written inside quotes. -/
def quoteCharacter (c : Character) : Text :=
  if c.code == replacement && c.bytes.length == 1 then
    utf8 "\\x" ++ hex c.bytes
  else if c.code == 0x22 || c.code == 0x5C then 0x5C :: c.bytes
  else if isPrintableCode c.code then c.bytes
  else
    match controlLetter c.code with
    | some l => [0x5C, l]
    | none =>
      if c.code < 0x20 || c.code == 0x7F then utf8 "\\x" ++ hexNat 2 c.code
      else if c.code < 0x10000 then utf8 "\\u" ++ hexNat 4 c.code
      else utf8 "\\U" ++ hexNat 8 c.code

/-- A character in single quotes; of the two quotes it is the single one that gets a backslash. -/
def quotedCode (code : Nat) : Text :=
  let inner :=
    if code == 0x22 then utf8 "\""
    else if code == 0x27 then utf8 "\\'"
    else (characters (ofCode code)).flatMap quoteCharacter
  utf8 "'" ++ inner ++ utf8 "'"

/-- The text in double quotes. -/
def quoted (t : Text) : Text := 0x22 :: (characters t).flatMap quoteCharacter ++ [0x22]

end CaseCover.Text
