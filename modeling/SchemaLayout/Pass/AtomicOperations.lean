import SchemaLayout.Schema.DefinitionSet

/-!
# Stripping atomic operations (specification §4.2)

An atomic operations type is an input that offers to `set` a number or to change it by arithmetic.
`stripAtomicOperations` lets every field that refers to such a type hold the number itself, and
removes the types that nothing left refers to.
-/
namespace SchemaLayout

/-- The fields of arithmetic operations. -/
def arithmeticFields : List String := ["increment", "decrement", "multiply", "divide"]

/-- The `set` field of an atomic operations type: an input with `set`, some arithmetic and nothing
else, whose `set` holds one numeric scalar. -/
def TypeDefinition.atomicSetField? (definition : TypeDefinition) : Option Field :=
  if definition.kind = .input
      && definition.fields.all (fun f => f.name == "set" || arithmeticFields.contains f.name)
      && definition.fields.any (fun f => arithmeticFields.contains f.name) then
    (definition.field? "set").filter fun field =>
      !field.isList && field.type.scalarKind?.any (·.isNumeric)
  else none

namespace AtomicOperations

/-- The `set` field of the operations type that a leaf refers to. -/
def setField? (operations : NameMap Field) (leaf : TypeRef) : Option Field :=
  leaf.definitionName?.bind operations.get?

/-- The field with the number in the place of operations; it becomes nullable if a replaced `set`
was. -/
def stripField (operations : NameMap Field) (field : Field) : Field :=
  { field with
    type := field.type.mapLeaves fun leaf => (setField? operations leaf).map (·.type)
    nullable := field.nullable
      || field.type.members.any fun leaf => (setField? operations leaf).any (·.nullable) }

/-- Whether a definition outside `removable` refers to the name. -/
def isPinned (types : NameMap TypeDefinition) (removable : List String) (name : String) : Bool :=
  types.values.any fun definition =>
    !removable.contains definition.name && definition.fields.any (·.type.refersTo name)

/-- The names that no definition outside `removable` refers to. -/
def unpinned (types : NameMap TypeDefinition) (removable : List String) : List String :=
  removable.filter (!isPinned types removable ·)

/-- The names that can go when nothing that stays may refer to them: those pinned are kept until
none is. -/
def removableFrom (types : NameMap TypeDefinition) (removable : List String) : List String :=
  if (unpinned types removable).length < removable.length then
    removableFrom types (unpinned types removable)
  else removable
termination_by removable.length

end AtomicOperations

namespace DefinitionSet

/-- The `set` field of each atomic operations type. -/
def atomicOperations (set : DefinitionSet) : NameMap Field :=
  .ofList (set.types.values.filterMap fun definition =>
    definition.atomicSetField?.map (definition.name, ·))

/-- The types with operations replaced in the fields of all other definitions. -/
def strippedTypes (set : DefinitionSet) : NameMap TypeDefinition :=
  let operations := set.atomicOperations
  set.types.mapValues fun name definition =>
    if operations.contains name then definition
    else definition.mapFields (AtomicOperations.stripField operations)

/-- Replaces atomic operations types by their numbers and removes them (specification §4.2). -/
def stripAtomicOperations (set : DefinitionSet) : DefinitionSet :=
  if set.atomicOperations.isEmpty then set
  else
    let types := set.strippedTypes
    let removed := AtomicOperations.removableFrom types set.atomicOperations.keys
    { set with types := types.filter fun name _ => !removed.contains name }

end DefinitionSet

end SchemaLayout
