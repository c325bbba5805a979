import SchemaLayout.Format.Value

/-!
# Writing JSON

`Json.compact` writes a value on one line without blanks, `Json.pretty` over several lines with two
more blanks at the beginning of each line for each level. Characters are written as they are, apart
from quotes, backslashes and control characters.
-/
namespace SchemaLayout.Json

/-! ## Strings -/

/-- A hexadecimal digit in lower case. -/
def hexChar (digit : Nat) : Char :=
  if digit < 10 then Char.ofNat ('0'.toNat + digit) else Char.ofNat ('a'.toNat + (digit - 10))

/-- The written form of a character inside quotes. -/
def escaped (c : Char) : List Char :=
  match c with
  | '"' => ['\\', '"']
  | '\\' => ['\\', '\\']
  | '\n' => ['\\', 'n']
  | '\r' => ['\\', 'r']
  | '\t' => ['\\', 't']
  | c =>
    if c.toNat = 8 then ['\\', 'b']
    else if c.toNat = 12 then ['\\', 'f']
    else if c.toNat < 0x20 then
      ['\\', 'u', '0', '0', hexChar (c.toNat / 16), hexChar (c.toNat % 16)]
    else [c]

/-- A text in quotes. -/
def quoted (text : String) : String :=
  String.ofList ('"' :: text.toList.flatMap escaped ++ ['"'])

/-! ## Values -/

mutual

/-- The value on one line. -/
def compact : Value → String
  | .null | .unreadable => "null"
  | .flag value => if value then "true" else "false"
  | .number written => written
  | .text value => quoted value
  | .list items => "[" ++ ",".intercalate (compactItems items) ++ "]"
  | .record entries => "\x7b" ++ ",".intercalate (compactEntries entries) ++ "\x7d"

/-- Each item on one line. -/
def compactItems : List Value → List String
  | [] => []
  | value :: rest => compact value :: compactItems rest

/-- Each entry on one line. -/
def compactEntries : List (String × Value) → List String
  | [] => []
  | (name, value) :: rest => (quoted name ++ ":" ++ compact value) :: compactEntries rest

end

/-- A line break with the blanks in front of the next line. -/
def lineBreak (level : Nat) : String :=
  String.ofList ('\n' :: List.replicate (2 * level) ' ')

/-- Parts of a list or record at a level, each on a line of its own between brackets. -/
def block (opening closing : String) (level : Nat) (parts : List String) : String :=
  if parts.isEmpty then opening ++ closing
  else opening ++ lineBreak (level + 1) ++ ("," ++ lineBreak (level + 1)).intercalate parts
    ++ lineBreak level ++ closing

mutual

/-- The value over several lines, the first of which is at a level. -/
def prettyAt (level : Nat) : Value → String
  | .list items => block "[" "]" level (prettyItems level items)
  | .record entries => block "\x7b" "\x7d" level (prettyEntries level entries)
  | value => compact value

/-- Each item of a list at a level. -/
def prettyItems (level : Nat) : List Value → List String
  | [] => []
  | value :: rest => prettyAt (level + 1) value :: prettyItems level rest

/-- Each entry of a record at a level. -/
def prettyEntries (level : Nat) : List (String × Value) → List String
  | [] => []
  | (name, value) :: rest =>
    (quoted name ++ ": " ++ prettyAt (level + 1) value) :: prettyEntries level rest

end

/-- The value over several lines. -/
def pretty (value : Value) : String := prettyAt 0 value

end SchemaLayout.Json
