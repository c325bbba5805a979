import SchemaLayout.Names.Set
import SchemaLayout.Schema.RenameTable

/-!
# Sets of definitions (specification §3)

A `DefinitionSet` holds type definitions and enums under their names; the two share one namespace.
It is traversed in the order of the names. `fault?` finds the first rule that a set breaks,
`rewriteReferences` replaces the names that fields refer to, and `applyRenames` renames definitions
and the references to them in one step.
-/
namespace SchemaLayout

/-- Type definitions and enums by name (specification §3, `DefinitionSet`). -/
structure DefinitionSet where
  types : NameMap TypeDefinition
  enums : NameMap EnumDefinition
  deriving DecidableEq

/-- One leaf of one field of a definition. -/
structure Reference where
  definition : String
  field : String
  target : TypeRef

namespace DefinitionSet

/-- The set without definitions. -/
def empty : DefinitionSet := ⟨∅, ∅⟩

instance : EmptyCollection DefinitionSet := ⟨empty⟩

instance : Inhabited DefinitionSet := ⟨empty⟩

/-- Whether a type definition or an enum has the name. -/
def containsName (set : DefinitionSet) (name : String) : Bool :=
  set.types.contains name || set.enums.contains name

/-- Whether there are no definitions. -/
def isEmpty (set : DefinitionSet) : Bool := set.types.isEmpty && set.enums.isEmpty

/-! ## Building -/

/-- The set with one more type definition, whose name must be free. -/
def insertType (set : DefinitionSet) (definition : TypeDefinition) :
    Except SchemaError DefinitionSet :=
  if set.containsName definition.name then
    .error (.nameCollision definition.name (.existing definition.name)
      (.definition definition.kind definition.name))
  else .ok { set with types := set.types.insert definition.name definition }

/-- The set with one more enum, whose name must be free. -/
def insertEnum (set : DefinitionSet) (definition : EnumDefinition) :
    Except SchemaError DefinitionSet :=
  if set.containsName definition.name then
    .error (.nameCollision definition.name (.existing definition.name)
      (.enumeration definition.name))
  else .ok { set with enums := set.enums.insert definition.name definition }

/-- The set of the given definitions, no two of one name. -/
def ofLists (types : List TypeDefinition) (enums : List EnumDefinition) :
    Except SchemaError DefinitionSet :=
  (types.foldlM insertType ∅).bind (enums.foldlM insertEnum)

/-! ## References and faults -/

/-- Every leaf of every field, in the order of traversal. -/
def references (set : DefinitionSet) : List Reference :=
  set.types.values.flatMap fun definition =>
    definition.fields.flatMap fun field =>
      field.type.members.map fun leaf => ⟨definition.name, field.name, leaf⟩

/-- Whether the set has the enum or type definition that a leaf names. Scalars and nested unions
name nothing. -/
def resolves (set : DefinitionSet) : TypeRef → Bool
  | .definition name => set.types.contains name
  | .enumeration name => set.enums.contains name
  | _ => true

/-- An error for every reference to a name that the set does not have, in the order of traversal. -/
def danglingReferences (set : DefinitionSet) : List SchemaError :=
  set.references.filterMap fun reference =>
    if set.resolves reference.target then none
    else reference.target.referencedName?.map
      (SchemaError.danglingReference reference.definition reference.field)

/-- Whether a union of these members is in normal form as far as sets require it: two members or
more, and no union among them. -/
def normalMembers (members : List TypeRef) : Bool :=
  2 ≤ members.length && !members.any TypeRef.isUnion

/-- The first fault of a definition's fields, where `seen` are the names of those in front. -/
def fieldsFault? (definition : String) (seen : List String) : List Field → Option DefinitionFault
  | [] => none
  | field :: rest =>
    if seen.contains field.name then some (.repeatedField definition field.name)
    else if field.type.isUnion && !normalMembers field.type.members then
      some (.unnormalizedUnion definition field.name)
    else fieldsFault? definition (field.name :: seen) rest

/-- The first fault of a type definition that is held under `key`. -/
def typeFault? (key : String) (definition : TypeDefinition) : Option SchemaError :=
  if key = definition.name then
    (fieldsFault? definition.name [] definition.fields).map .invalidDefinition
  else some (.invalidDefinition (.typeUnderOtherName key definition.name))

/-- The fault of an enum that is held under `key`. -/
def enumFault? (set : DefinitionSet) (key : String) (definition : EnumDefinition) :
    Option SchemaError :=
  if key ≠ definition.name then
    some (.invalidDefinition (.enumUnderOtherName key definition.name))
  else if set.types.contains key then
    some (.nameCollision key (.anyDefinition key) (.enumeration key))
  else none

/-- The first rule that the set breaks. Every definition is held under its own name, no name is both
a type and an enum, a definition names each field once, unions are in normal form, and every
reference resolves. -/
def fault? (set : DefinitionSet) : Option SchemaError :=
  (set.types.entries.findSome? fun entry => typeFault? entry.1 entry.2)
    <|> (set.enums.entries.findSome? fun entry => set.enumFault? entry.1 entry.2)
    <|> set.danglingReferences.head?

/-- Refuses a set that breaks a rule. -/
def validate (set : DefinitionSet) : Except SchemaError Unit :=
  match set.fault? with
  | some fault => .error fault
  | none => .ok ()

/-! ## Renaming -/

/-- The set with every reference put through the table; the names of definitions stay. -/
def rewriteReferences (set : DefinitionSet) (table : RenameTable) : DefinitionSet :=
  if table.isEmpty then set
  else { set with types := set.types.mapValues fun _ definition =>
    definition.mapFields (·.renamed table) }

/-- The first definition that is to get a name which another definition has. -/
def takenTarget? (set : DefinitionSet) (table : RenameTable) : Option SchemaError :=
  (table.toList.find? fun pair => set.containsName pair.1 && set.containsName pair.2).map
    fun pair => .nameCollision pair.2 (.named pair.1) (.named pair.2)

/-- Renames definitions and every reference to them in one step. Entries for names that the set does
not have count for references only, so renaming twice is renaming once. -/
def applyRenames (set : DefinitionSet) (table : RenameTable) : Except SchemaError DefinitionSet :=
  match table.sharedTarget? <|> table.chained? <|> set.takenTarget? table with
  | some fault => .error fault
  | none =>
    let types := set.types.values.map fun definition =>
      { definition.mapFields (·.renamed table) with name := table.apply definition.name }
    let enums := set.enums.values.map fun definition =>
      { definition with name := table.apply definition.name }
    .ok ⟨NameMap.ofList (types.map fun definition => (definition.name, definition)),
      NameMap.ofList (enums.map fun definition => (definition.name, definition))⟩

end DefinitionSet

end SchemaLayout
