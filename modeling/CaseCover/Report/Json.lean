import CaseCover.Issue

/-!
# Issues as JSON

An object that maps each file name, in the order of their bytes, to the list of its issues. Texts
are quoted so that they can stand in a web page: angle brackets and ampersands are escaped, and so
are the two separators that end a line in scripts. Bytes that are not UTF-8 become U+FFFD.
-/

namespace CaseCover.Report.Json

/-- The letter of a control character with an escape of its own. -/
def controlLetter (n : Nat) : Option UInt8 :=
  match n with
  | 8 => some 0x62
  | 9 => some 0x74
  | 10 => some 0x6E
  | 12 => some 0x66
  | 13 => some 0x72
  | _ => none

/-- One character as written inside quotes. -/
def quoteCharacter (c : Text.Character) : Text :=
  let n := c.code
  if n == Text.replacement && c.bytes.length == 1 then utf8 "\\ufffd"
  else if n == 0x22 || n == 0x5C then 0x5C :: c.bytes
  else
    match controlLetter n with
    | some l => [0x5C, l]
    | none =>
      if n < 0x20 || n == 0x3C || n == 0x3E || n == 0x26 || n == 0x2028 || n == 0x2029 then
        utf8 "\\u" ++ Text.hexNat 4 n
      else c.bytes

/-- A text in quotes. -/
def quoted (t : Text) : Text := 0x22 :: (Text.characters t).flatMap quoteCharacter ++ [0x22]

/-- An object with the given fields, whose values are written already. -/
def object (fields : List (Text × Text)) : Text :=
  0x7B :: Text.join "," (fields.map fun (k, v) => quoted k ++ 0x3A :: v) ++ [0x7D]

/-- A list of written values. -/
def array (items : List Text) : Text := 0x5B :: Text.join "," items ++ [0x5D]

/-- A place. -/
def place (p : Place) : Text :=
  object [("Filename", quoted p.filename), ("Offset", Text.ofInt p.offset),
    ("Line", Text.ofInt p.line), ("Column", Text.ofInt p.column)]

/-- An issue. -/
def issue (i : Issue) : Text :=
  object [("Rule", quoted i.rule), ("Category", quoted i.category), ("Filename", quoted i.filename),
    ("Message", quoted i.message), ("Note", quoted i.note), ("Start", place i.start),
    ("End", place i.stop), ("Severity", quoted i.severity.name)]

/-- The issues of each file, the files in the order of their names. -/
def issues (is : List Issue) : Text :=
  object ((Issue.byFile is).map fun (name, is) => (name, array (is.map issue)))

end CaseCover.Report.Json
