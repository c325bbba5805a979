import SchemaLayout.Format.Value
import SchemaLayout.Names.Set

/-!
# Decoding documents

The parts from which decoders are made. A structure is written as a record of its fields by name, or
as a list of them in their order, where those at the end that have defaults may be left out. A name
of a choice is written as a text, or as a record of one entry under that name which carries nothing.
What a format takes for nothing, whether such lists may go on, and whether a number can stand for a
name, is said by its `Dialect`.
-/
namespace SchemaLayout

/-- Where formats differ in how structures and choices are written. -/
structure Dialect where
  /-- Whether a value counts as nothing beside the name of a choice. -/
  isNothing : Value → Bool
  /-- Whether a list of fields may have further items, which are passed over. -/
  allowsMoreItems : Bool
  /-- Whether the place of a name among all, counted from zero, can stand for it at the front of a
  list. -/
  allowsPlaces : Bool

namespace Dialect

/-- JSON: nothing is `null`. -/
def json : Dialect where
  isNothing
    | .null => true
    | _ => false
  allowsMoreItems := false
  allowsPlaces := false

/-- JSON that is kept until its kind is known: an empty record is nothing too, and places can stand
for names. -/
def keptJson : Dialect where
  isNothing
    | .null | .record [] => true
    | _ => false
  allowsMoreItems := false
  allowsPlaces := true

/-- TOML: nothing is an empty list or record. -/
def toml : Dialect where
  isNothing
    | .list [] | .record [] => true
    | _ => false
  allowsMoreItems := true
  allowsPlaces := false

end Dialect

namespace Decode

/-! ## Simple values -/

/-- A text. -/
def text : Value → Option String
  | .text value => some value
  | _ => none

/-- A flag. -/
def flag : Value → Option Bool
  | .flag value => some value
  | _ => none

/-- A list. -/
def list (item : Value → Option α) : Value → Option (List α)
  | .list items => items.mapM item
  | _ => none

/-- A set of names, written as a list. -/
def nameSet (value : Value) : Option NameSet :=
  (list text value).map NameSet.ofList

/-- A map from names, written as a record. -/
def nameMap (item : Value → Option α) : Value → Option (NameMap α)
  | .record entries =>
    (entries.mapM fun entry => (item entry.2).map (entry.1, ·)).map NameMap.ofList
  | _ => none

/-- The choice whose name is written, out of those named. -/
def choice (dialect : Dialect) (choices : List (String × α)) : Value → Option α
  | .text name => choices.lookup name
  | .record [(name, payload)] =>
    if dialect.isNothing payload then choices.lookup name else none
  | _ => none

/-- The choice whose name, or place where the dialect has those, is at the front of a list. -/
def leadingChoice (dialect : Dialect) (choices : List (String × α)) : Value → Option α
  | .text name => choices.lookup name
  | .number written =>
    if dialect.allowsPlaces then
      (choices.zipIdx.find? fun choice => toString choice.2 == written).map (·.1.2)
    else none
  | _ => none

/-! ## Structures -/

/-- Whether a record has none of the names twice. -/
def namesOnce (names : List String) (entries : List (String × Value)) : Bool :=
  names.all fun name => (entries.filter (·.1 == name)).length ≤ 1

/-- The fields of a structure by name. Entries that are no fields are left in. -/
def fields (dialect : Dialect) (names : List String) : Value → Option (List (String × Value))
  | .record entries => if namesOnce names entries then some entries else none
  | .list items =>
    if items.length ≤ names.length ∨ dialect.allowsMoreItems then some (names.zip items) else none
  | _ => none

/-- The fields of a structure that has no entries apart from them. -/
def closedFields (dialect : Dialect) (names : List String) (value : Value) :
    Option (List (String × Value)) :=
  (fields dialect names value).filter fun entries => entries.all (names.contains ·.1)

/-- A field that has to be there. -/
def required (entries : List (String × Value)) (name : String) (item : Value → Option α) :
    Option α :=
  (entries.lookup name).bind item

/-- A field that has a default. -/
def defaulted (entries : List (String × Value)) (name : String) (item : Value → Option α)
    (default : α) : Option α :=
  match entries.lookup name with
  | some value => item value
  | none => some default

/-- A field that may be left out or written as nothing. -/
def optional (entries : List (String × Value)) (name : String) (item : Value → Option α) :
    Option (Option α) :=
  match entries.lookup name with
  | none | some .null => some none
  | some value => (item value).map some

end Decode

namespace Encode

/-- A set of names as a list. -/
def nameSet (names : NameSet) : Value := .list (names.toList.map .text)

/-- A map from names as a record. -/
def nameMap (item : α → Value) (map : NameMap α) : Value :=
  .record (map.entries.map fun entry => (entry.1, item entry.2))

/-- A number. -/
def number (n : Nat) : Value := .number (toString n)

/-- An entry that is left out when there is nothing to write. -/
def omitEmpty (empty : Bool) (name : String) (value : Value) : List (String × Value) :=
  if empty then [] else [(name, value)]

end Encode

end SchemaLayout
