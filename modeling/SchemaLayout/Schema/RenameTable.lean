import SchemaLayout.Names.Map
import SchemaLayout.Names.Repeat
import SchemaLayout.Schema.Error

/-!
# Rename tables (specification §3)

A `RenameTable` says which names are replaced by which. It is applied in one step: a name that a
replacement brings in is not replaced again. Several names may have one replacement, as when
definitions are merged; `sharedTarget?` finds such a pair where each definition has to keep a name
of its own, and `chained?` finds a replacement that is itself to be replaced.
-/
namespace SchemaLayout

/-- Replacements for names (specification §3, `RenameTable`). -/
structure RenameTable where
  entries : NameMap String
  deriving DecidableEq

namespace RenameTable

/-- The table that replaces nothing. -/
def empty : RenameTable := ⟨∅⟩

instance : EmptyCollection RenameTable := ⟨empty⟩

instance : Inhabited RenameTable := ⟨empty⟩

/-- The replacement of a name. -/
def get? (table : RenameTable) (name : String) : Option String :=
  table.entries.get? name

/-- The name after replacement. -/
def apply (table : RenameTable) (name : String) : String :=
  (table.get? name).getD name

/-- Whether the table replaces nothing. -/
def isEmpty (table : RenameTable) : Bool := table.entries.isEmpty

/-- How many names are replaced. -/
def size (table : RenameTable) : Nat := table.entries.size

/-- The replaced names with their replacements, in the order of the names. -/
def toList (table : RenameTable) : List (String × String) := table.entries.entries

/-- The table of a list of pairs of a name and its replacement. -/
def ofList (pairs : List (String × String)) : RenameTable := ⟨NameMap.ofList pairs⟩

/-- The table with one more replacement. A name is not replaced by itself, nor by two names. -/
def insert (table : RenameTable) (source target : String) : Except SchemaError RenameTable :=
  if source = target then .error (.conflict (.renamedToItself source))
  else match table.get? source with
    | some other =>
      if other = target then .ok table
      else .error (.conflict (.renamedTwice source other target))
    | none => .ok ⟨table.entries.insert source target⟩

/-- The first replacement that is itself to be replaced. -/
def chained? (table : RenameTable) : Option SchemaError :=
  (table.toList.find? (fun pair => table.entries.contains pair.2)).map fun pair =>
    .conflict (.targetRenamed pair.2 pair.1)

/-- The first name whose replacement an earlier name has too. -/
def sharedTarget? (table : RenameTable) : Option SchemaError :=
  (firstRepeat? Prod.snd table.toList).map fun (earlier, later) =>
    .nameCollision later.2 (.named earlier.1) (.named later.1)

end RenameTable

/-- What a leaf becomes under the table, when it names something to be replaced. -/
def TypeRef.replacement? (table : RenameTable) : TypeRef → Option TypeRef
  | .definition name => (table.get? name).map .definition
  | .enumeration name => (table.get? name).map .enumeration
  | _ => none

/-- The reference with the names of its leaves replaced. The empty table changes nothing; any other
puts unions in normal form. -/
def TypeRef.renamed (table : RenameTable) (ref : TypeRef) : TypeRef :=
  if table.isEmpty then ref else ref.mapLeaves (TypeRef.replacement? table)

/-- The field with the names in its type replaced. -/
def Field.renamed (table : RenameTable) (field : Field) : Field :=
  { field with type := field.type.renamed table }

end SchemaLayout
