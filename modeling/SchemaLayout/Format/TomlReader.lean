import SchemaLayout.Format.TomlTable
import SchemaLayout.Format.TomlText

/-!
# Reading TOML

`Toml.read` reads a TOML document into the record of its top-level table.
-/
namespace SchemaLayout.Toml

mutual

/-- A value inside `depth` lists and inline tables, and the text behind it. -/
def readValue : (fuel depth : Nat) → List Char → Option (Value × List Char)
  | 0, _, _ => none
  | fuel + 1, depth, cs =>
    match cs with
    | '"' :: _ | '\'' :: _ => (readString cs).map fun (text, rest) => (.text text, rest)
    | '[' :: rest => do
      if depthLimit ≤ depth + 1 then none
      match ← skipLines? (rest.length + 1) rest with
      | ']' :: rest => return (.list [], rest)
      | rest =>
        let (items, rest) ← readItems fuel (depth + 1) rest
        return (.list items, rest)
    | '\x7b' :: rest => do
      if depthLimit ≤ depth + 1 then none
      match skipBlanks rest with
      | '\x7d' :: rest => return (.record [], rest)
      | rest =>
        let (entries, rest) ← readPairs fuel (depth + 1) [] rest
        return (.record (contentEntries entries), rest)
    | _ =>
      match Json.dropExpected? "true" cs, Json.dropExpected? "false" cs with
      | some rest, _ => some (.flag true, rest)
      | none, some rest => some (.flag false, rest)
      | none, none => readNumeral cs

/-- The items of a list up to its closing bracket. -/
def readItems : (fuel depth : Nat) → List Char → Option (List Value × List Char)
  | 0, _, _ => none
  | fuel + 1, depth, cs => do
    let (value, rest) ← readValue fuel depth cs
    match ← skipLines? (rest.length + 1) rest with
    | ',' :: rest =>
      match ← skipLines? (rest.length + 1) rest with
      | ']' :: rest => return ([value], rest)
      | rest =>
        let (values, rest) ← readItems fuel depth rest
        return (value :: values, rest)
    | ']' :: rest => return ([value], rest)
    | _ => none

/-- The pairs of an inline table up to its closing brace, put into the entries before them. -/
def readPairs : (fuel depth : Nat) → Entries → List Char → Option (Entries × List Char)
  | 0, _, _, _ => none
  | fuel + 1, depth, entries, cs => do
    let (path, rest) ← readKey cs
    let rest ← Json.dropExpected? "=" rest
    let (value, rest) ← readValue fuel depth (skipBlanks rest)
    let entries ← entries.put value true path
    match skipBlanks rest with
    | ',' :: rest => readPairs fuel depth entries rest
    | '\x7d' :: rest => return (entries, rest)
    | _ => none

end

/-- The entries of a document after the statements of a text, where `table` is the path of the table
last opened. -/
def readStatements : (fuel : Nat) → (table : List String) → Entries → List Char → Option Entries
  | 0, _, _, _ => none
  | fuel + 1, table, entries, cs =>
    match skipBlanks cs with
    | [] => some entries
    | '[' :: '[' :: rest => do
      let (path, rest) ← readKey rest
      let rest ← (Json.dropExpected? "]]" rest).bind dropLineEnd?
      readStatements fuel path (← entries.openTable true path) rest
    | '[' :: rest => do
      let (path, rest) ← readKey rest
      let rest ← (Json.dropExpected? "]" rest).bind dropLineEnd?
      readStatements fuel path (← entries.openTable false path) rest
    | c :: rest =>
      if c = '#' ∨ c = '\n' ∨ c = '\r' then
        (dropLineEnd? (c :: rest)).bind (readStatements fuel table entries)
      else do
        let (path, rest) ← readKey (c :: rest)
        let rest ← Json.dropExpected? "=" rest
        let (value, rest) ← readValue (2 * rest.length + 2) 0 (skipBlanks rest)
        let entries ← entries.within (·.put value true path) table
        readStatements fuel table entries (← dropLineEnd? rest)

/-- The record of a TOML document; a byte order mark may stand in front of it. -/
def read (text : String) : Option Value :=
  let cs :=
    match text.toList with
    | c :: rest => if c.toNat = 0xFEFF then rest else c :: rest
    | [] => []
  (readStatements (cs.length + 1) [] [] cs).map fun entries => .record (contentEntries entries)

end SchemaLayout.Toml
