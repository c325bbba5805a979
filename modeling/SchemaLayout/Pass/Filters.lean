import SchemaLayout.Schema.DefinitionSet
import SchemaLayout.Text.Affix

/-!
# Combining filters (specification §4.1)

A filter is an input whose name ends in `Filter`. A filter such as `NestedStringNullableFilter` is a
variant of the one whose name is left when the tokens `Nullable` and `Nested` are deleted.
`combineFilters` merges the variants into that base: the base's fields come first, then the new
fields of each variant in the order of their names, and every reference is turned to the base.
-/
namespace SchemaLayout

/-- What tells a variant's name from its base. -/
def variantTokens : List String := ["Nullable", "Nested"]

/-- The name without variant tokens. -/
def filterBase (name : String) : String := Text.withoutTokens name variantTokens

/-- Whether a definition is a filter. -/
def TypeDefinition.isFilter (definition : TypeDefinition) : Bool :=
  definition.kind == .input && "Filter".toList.isSuffixOf definition.name.toList

/-! ## Merging fields -/

/-- A field of a merged filter with the name of the filter that brought it in. -/
structure MergedField where
  field : Field
  owner : String
  deriving DecidableEq

/-- The merged fields with one more field of the filter `owner`. A field that is there already must
agree in type and list mark, and becomes nullable if either is. -/
def mergeField (merged : List MergedField) (owner : String) (field : Field) :
    Except SchemaError (List MergedField) :=
  match merged.find? (·.field.name == field.name) with
  | none => .ok (merged ++ [⟨field, owner⟩])
  | some known =>
    if known.field.type = field.type ∧ known.field.isList = field.isList then
      .ok (merged.map fun entry =>
        if entry.field.name = field.name then
          { entry with field.nullable := entry.field.nullable || field.nullable }
        else entry)
    else .error (.incompatibleFilters known.owner owner known.field field)

/-- The fields of several filters, joined by name, with references put through the table. -/
def mergeFields (table : RenameTable) (variants : List TypeDefinition) :
    Except SchemaError (List MergedField) :=
  variants.foldlM (fun merged variant =>
    variant.fields.foldlM (fun merged field => mergeField merged variant.name (field.renamed table))
      merged) []

/-- One filter named `base` for several; it belongs to the first source entity among them. -/
def mergeVariants (table : RenameTable) (base : String) (variants : List TypeDefinition) :
    Except SchemaError TypeDefinition :=
  (mergeFields table variants).map fun merged =>
    { name := base
      kind := .input
      fields := merged.map (·.field)
      sourceEntity? := variants.findSome? (·.sourceEntity?) }

namespace DefinitionSet

/-! ## Groups -/

/-- The names of the set's filters, by base. -/
def filterGroups (set : DefinitionSet) : NameMap (List String) :=
  (set.types.values.filter (·.isFilter)).foldl (fun groups definition =>
    groups.alter (filterBase definition.name) fun members? =>
      members?.getD [] ++ [definition.name]) ∅

/-- Turns each variant of the groups to its base. -/
def variantTable (groups : NameMap (List String)) : RenameTable :=
  .ofList (groups.entries.flatMap fun group =>
    (group.2.filter (· != group.1)).map fun member => (member, group.1))

/-- Why a filter cannot get the name `base`: an enum or a definition that is no filter has it. -/
def baseCollision? (set : DefinitionSet) (base : String) : Option SchemaError :=
  if set.enums.contains base then
    some (.nameCollision base (.enumeration base) .mergedFilter)
  else match set.types.get? base with
    | some definition =>
      if definition.isFilter then none
      else some (.nameCollision base (.definition definition.kind base) .mergedFilter)
    | none => none

/-- The filters of a group that are among the types, the base first. -/
def groupVariants (types : NameMap TypeDefinition) (base : String) (members : List String) :
    List TypeDefinition :=
  (base :: members.filter (· != base)).filterMap types.get?

/-- Puts the merged filter in the place of its group, when the group has a variant. -/
def mergeGroup (table : RenameTable) (types : NameMap TypeDefinition)
    (group : String × List String) : Except SchemaError (NameMap TypeDefinition) :=
  if group.2.all (· == group.1) then .ok types
  else
    (mergeVariants table group.1 (groupVariants types group.1 group.2)).map fun merged =>
      ((group.2.foldl NameMap.erase types).erase group.1).insert group.1 merged

/-- Merges every variant of a filter into its base (specification §4.1). -/
def combineFilters (set : DefinitionSet) : Except SchemaError DefinitionSet :=
  let groups := set.filterGroups
  let table := variantTable groups
  if table.isEmpty then .ok set
  else match groups.keys.findSome? set.baseCollision? with
    | some collision => .error collision
    | none =>
      (groups.entries.foldlM (mergeGroup table) set.types).map fun types =>
        rewriteReferences ⟨types, set.enums⟩ table

end DefinitionSet

end SchemaLayout
