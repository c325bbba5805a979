import SchemaLayout.Names.Map

/-!
# Documents

The content of a document, whatever its format: nested lists and records of texts, flags, numbers
and nothing. A record lists its entries in the order and with the repeats of the document;
`Value.canonical` is the same content with each name once and in order.
-/
namespace SchemaLayout

/-- The content of a document. -/
inductive Value where
  | null
  | flag (value : Bool)
  /-- A number, as it is written. -/
  | number (written : String)
  | text (value : String)
  | list (items : List Value)
  | record (entries : List (String × Value))
  /-- Something well formed that has no content: an escape that stands for no character, a number
  out of range, or lists and records nested too deeply. -/
  | unreadable
  deriving Inhabited, Repr

namespace Value

/-! ## Readability -/

mutual

/-- Whether nothing in the value is unreadable. -/
def isReadable : Value → Bool
  | .list items => areReadable items
  | .record entries => entriesReadable entries
  | .unreadable => false
  | _ => true

/-- Whether all values are readable. -/
def areReadable : List Value → Bool
  | [] => true
  | value :: rest => isReadable value && areReadable rest

/-- Whether the values of all entries are readable. -/
def entriesReadable : List (String × Value) → Bool
  | [] => true
  | (_, value) :: rest => isReadable value && entriesReadable rest

end

/-! ## Canonical form -/

mutual

/-- The value with the entries of every record in the order of their names; of two entries of one
name the later counts. -/
def canonical : Value → Value
  | .list items => .list (canonicalItems items)
  | .record entries => .record (NameMap.ofList (canonicalEntries entries)).entries
  | value => value

/-- The canonical form of each value. -/
def canonicalItems : List Value → List Value
  | [] => []
  | value :: rest => canonical value :: canonicalItems rest

/-- The entries with their values in canonical form. -/
def canonicalEntries : List (String × Value) → List (String × Value)
  | [] => []
  | (name, value) :: rest => (name, canonical value) :: canonicalEntries rest

end

end Value

end SchemaLayout
