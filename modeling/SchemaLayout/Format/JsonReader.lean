import SchemaLayout.Format.Decimal
import SchemaLayout.Format.Value

/-!
# Reading JSON

`Json.read` reads a JSON text, and `Json.readFirst` the value that a text begins with. Entries are
kept in the order of the text and with repeats; what is well formed but has no content becomes
`Value.unreadable`.
-/
namespace SchemaLayout.Json

/-! ## Blanks and literals -/

/-- Blanks between the parts of a text. -/
def isBlank (c : Char) : Bool := c == ' ' || c == '\t' || c == '\n' || c == '\r'

/-- The text from its first character that is no blank. -/
def skipBlanks (cs : List Char) : List Char := cs.dropWhile isBlank

/-- The text behind an expected beginning. -/
def dropExpected? (expected : String) (cs : List Char) : Option (List Char) :=
  if expected.toList.isPrefixOf cs then some (cs.drop expected.length) else none

/-! ## Strings -/

/-- The value of a hexadecimal digit. -/
def hexDigit? (c : Char) : Option Nat :=
  if '0' ≤ c ∧ c ≤ '9' then some (c.toNat - '0'.toNat)
  else if 'a' ≤ c ∧ c ≤ 'f' then some (c.toNat - 'a'.toNat + 10)
  else if 'A' ≤ c ∧ c ≤ 'F' then some (c.toNat - 'A'.toNat + 10)
  else none

/-- The number written by hexadecimal digits. -/
def hexNumber? (digits : List Char) : Option Nat :=
  digits.foldl (fun number? c => do return 16 * (← number?) + (← hexDigit? c)) (some 0)

/-- The character of a one-letter escape. -/
def escape? (c : Char) : Option Char :=
  match c with
  | '"' => some '"'
  | '\\' => some '\\'
  | '/' => some '/'
  | 'b' => some (Char.ofNat 8)
  | 'f' => some (Char.ofNat 12)
  | 'n' => some '\n'
  | 'r' => some '\r'
  | 't' => some '\t'
  | _ => none

/-- The codes of a string up to its closing quote, and the text behind it. -/
def readCodes : List Char → Option (List Nat × List Char)
  | [] => none
  | '"' :: rest => some ([], rest)
  | '\\' :: 'u' :: a :: b :: c :: d :: rest => do
    let code ← hexNumber? [a, b, c, d]
    let (codes, rest) ← readCodes rest
    return (code :: codes, rest)
  | '\\' :: letter :: rest => do
    let c ← escape? letter
    let (codes, rest) ← readCodes rest
    return (c.toNat :: codes, rest)
  | c :: rest =>
    if c.toNat < 0x20 then none
    else do
      let (codes, rest) ← readCodes rest
      return (c.toNat :: codes, rest)

/-- First halves of surrogate pairs. -/
def isHighSurrogate (code : Nat) : Bool := 0xD800 ≤ code && code < 0xDC00

/-- Second halves of surrogate pairs. -/
def isLowSurrogate (code : Nat) : Bool := 0xDC00 ≤ code && code < 0xE000

/-- The characters of codes, unless a surrogate stands alone. -/
def charsOfCodes? : List Nat → Option (List Char)
  | [] => some []
  | [code] =>
    if isHighSurrogate code || isLowSurrogate code then none else some [Char.ofNat code]
  | high :: low :: rest =>
    if isHighSurrogate high then
      if isLowSurrogate low then
        (charsOfCodes? rest).map
          (Char.ofNat (0x10000 + (high - 0xD800) * 0x400 + (low - 0xDC00)) :: ·)
      else none
    else if isLowSurrogate high then none
    else (charsOfCodes? (low :: rest)).map (Char.ofNat high :: ·)

/-- A string behind its opening quote, if it has content, and the text behind it. -/
def readString (cs : List Char) : Option (Option String × List Char) :=
  (readCodes cs).map fun (codes, rest) => ((charsOfCodes? codes).map String.ofList, rest)

/-! ## Numbers -/

/-- A number, and the text behind it. -/
def readNumber (cs : List Char) : Option (Value × List Char) := do
  let unsigned := match cs with
    | '-' :: rest => rest
    | _ => cs
  let (decimal, rest) ← Decimal.read unsigned
  let written := String.ofList (cs.take (cs.length - rest.length))
  return (if decimal.fitsInSteps then .number written else .unreadable, rest)

/-! ## Values -/

/-- How deep lists and records may be nested to be readable. -/
def depthLimit : Nat := 127

/-- A list or record found at a depth. -/
def atDepth (depth : Nat) (value : Value) : Value :=
  if depth ≤ depthLimit then value else .unreadable

/-- A record of entries, if every name has content. -/
def recordOf (entries : List (Option String × Value)) : Value :=
  match entries.mapM fun (name?, value) => name?.map (·, value) with
  | some entries => .record entries
  | none => .unreadable

mutual

/-- A value inside `depth` lists and records, and the text behind it. -/
def readValue : (fuel depth : Nat) → List Char → Option (Value × List Char)
  | 0, _, _ => none
  | fuel + 1, depth, cs =>
    match skipBlanks cs with
    | '\x7b' :: rest =>
      match skipBlanks rest with
      | '\x7d' :: rest => some (atDepth (depth + 1) (.record []), rest)
      | _ => (readEntries fuel (depth + 1) rest).map fun (entries, rest) =>
        (atDepth (depth + 1) (recordOf entries), rest)
    | '[' :: rest =>
      match skipBlanks rest with
      | ']' :: rest => some (atDepth (depth + 1) (.list []), rest)
      | _ => (readItems fuel (depth + 1) rest).map fun (items, rest) =>
        (atDepth (depth + 1) (.list items), rest)
    | '"' :: rest => (readString rest).map fun (text?, rest) =>
      (text?.elim .unreadable .text, rest)
    | 't' :: rest => (dropExpected? "rue" rest).map (.flag true, ·)
    | 'f' :: rest => (dropExpected? "alse" rest).map (.flag false, ·)
    | 'n' :: rest => (dropExpected? "ull" rest).map (.null, ·)
    | other => readNumber other

/-- The items of a list up to its closing bracket. -/
def readItems : (fuel depth : Nat) → List Char → Option (List Value × List Char)
  | 0, _, _ => none
  | fuel + 1, depth, cs => do
    let (value, rest) ← readValue fuel depth cs
    match skipBlanks rest with
    | ',' :: rest =>
      let (values, rest) ← readItems fuel depth rest
      return (value :: values, rest)
    | ']' :: rest => return ([value], rest)
    | _ => none

/-- The entries of a record up to its closing brace. -/
def readEntries : (fuel depth : Nat) → List Char → Option (List (Option String × Value) × List Char)
  | 0, _, _ => none
  | fuel + 1, depth, cs => do
    let rest ← dropExpected? "\"" (skipBlanks cs)
    let (name?, rest) ← readString rest
    let rest ← dropExpected? ":" (skipBlanks rest)
    let (value, rest) ← readValue fuel depth rest
    match skipBlanks rest with
    | ',' :: rest =>
      let (entries, rest) ← readEntries fuel depth rest
      return ((name?, value) :: entries, rest)
    | '\x7d' :: rest => return ([(name?, value)], rest)
    | _ => none

end

/-- The value that a text begins with, and the text behind it without blanks in front. Each step of
reading takes a character, which bounds their number. -/
def readFirst (text : String) : Option (Value × List Char) :=
  let cs := text.toList
  (readValue (2 * cs.length + 1) 0 cs).map fun (value, rest) => (value, skipBlanks rest)

/-- The value of a JSON text, which ends with it. -/
def read (text : String) : Option Value := do
  let (value, rest) ← readFirst text
  if rest = [] then some value else none

end SchemaLayout.Json
