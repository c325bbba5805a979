import SchemaLayout.Config
import SchemaLayout.Schema.DefinitionSet

/-!
# Folding duplicates (specification §4.4)

Two definitions are duplicates when they have one kind and the same fields, where references to
duplicates count as the same. Classes of duplicates are found by refinement: at first definitions
are told apart by their shape, whatever they refer to; then classes whose members refer to different
classes are split until no class splits any more. Each class folds into its first member in the
order of names, and definitions outside the scope keep a class each.
-/
namespace SchemaLayout

namespace Folding

/-! ## Shapes -/

/-- A class label for each definition of a list, in order, beside its name. -/
abbrev Labels := List (String × Nat)

/-- The label of the definition that a name refers to: of several the last. -/
def Labels.of (labels : Labels) (name : String) : Nat := (labels.reverse.lookup name).getD 0

/-- How many labels are in use. -/
def Labels.count (labels : Labels) : Nat := (labels.map (·.2)).eraseDups.length

/-- A leaf, with the label in the place of the referenced definition. -/
inductive LeafShape where
  | scalar (kind : ScalarKind)
  | enumeration (name : String)
  | definition (label : Nat)
  | union (members : List TypeRef)
  deriving DecidableEq

/-- A field by the shapes of its leaves, each once. -/
structure FieldShape where
  name : String
  nullable : Bool
  isList : Bool
  leaves : List LeafShape
  deriving DecidableEq

/-- What two definitions must share to be duplicates. Outside the scope the place in the list is
part of it. -/
structure Shape where
  kind : TypeKind
  pinned? : Option Nat
  fields : List FieldShape
  deriving DecidableEq

/-- The shape of a leaf. -/
def leafShape (labels : Labels) : TypeRef → LeafShape
  | .scalar kind => .scalar kind
  | .enumeration name => .enumeration name
  | .definition name => .definition (labels.of name)
  | .union members => .union members

/-- The shape of a field. Members of a union that get one shape count once, as they will once they
are folded. -/
def fieldShape (labels : Labels) (field : Field) : FieldShape where
  name := field.name
  nullable := field.nullable
  isList := field.isList
  leaves := (field.type.members.map (leafShape labels)).eraseDups

/-- The shape of the definition at a position. -/
def shape (scope : FoldScope) (labels : Labels) (position : Nat) (definition : TypeDefinition) :
    Shape where
  kind := definition.kind
  pinned? := if scope.includes definition.kind then none else some position
  fields := definition.fields.map (fieldShape labels)

/-- The shapes of definitions, in order. -/
def shapes (scope : FoldScope) (labels : Labels) (definitions : List TypeDefinition) : List Shape :=
  definitions.mapIdx (shape scope labels)

/-! ## Refinement -/

/-- Labels definitions by their keys, numbering keys as they come up. -/
def labelBy [DecidableEq κ] (definitions : List TypeDefinition) (keys : List κ) : Labels :=
  let distinct := keys.eraseDups
  (definitions.map (·.name)).zip (keys.map fun key => distinct.idxOf key)

/-- Labels by shape alone, as if all references were to one class. -/
def initialLabels (scope : FoldScope) (definitions : List TypeDefinition) : Labels :=
  labelBy definitions (shapes scope [] definitions)

/-- Splits classes by the labels that their members refer to. -/
def refine (scope : FoldScope) (definitions : List TypeDefinition) (labels : Labels) : Labels :=
  labelBy definitions ((labels.map (·.2)).zip (shapes scope labels definitions))

/-- Refines until the number of classes stays the same. -/
def settle (scope : FoldScope) (definitions : List TypeDefinition) :
    (rounds : Nat) → Labels → Labels
  | 0, labels => labels
  | rounds + 1, labels =>
    let next := refine scope definitions labels
    if next.count = labels.count then next else settle scope definitions rounds next

/-- The classes of duplicates. A round that does not end the search adds a class, so there are no
more rounds than definitions. -/
def classes (scope : FoldScope) (definitions : List TypeDefinition) : Labels :=
  settle scope definitions (definitions.length + 1) (initialLabels scope definitions)

/-- Each name that is not the first of its class, with that first name. -/
def foldedPairs (labels : Labels) : List (String × String) :=
  labels.filterMap fun (name, label) =>
    match labels.find? (·.2 == label) with
    | some (first, _) => if first = name then none else some (name, first)
    | none => none

end Folding

namespace DefinitionSet

/-- The first leaf that has no shape: a reference to a definition that is not there, or a union
inside a union. -/
def shapeFault? (set : DefinitionSet) : Option SchemaError :=
  set.references.findSome? fun reference =>
    match reference.target with
    | .definition name =>
      if set.types.contains name then none
      else some (.danglingReference reference.definition reference.field name)
    | .union _ => some (.invalidDefinition (.nestedUnion reference.definition reference.field))
    | _ => none

/-- Each duplicate with the definition that it folds into. -/
def foldTable (set : DefinitionSet) (scope : FoldScope) : Except SchemaError RenameTable :=
  if scope = .none then .ok ∅
  else match set.shapeFault? with
    | some fault => .error fault
    | none => .ok (.ofList (Folding.foldedPairs (Folding.classes scope set.types.values)))

/-- The set without the definitions that the table replaces, and no reference to them. -/
def foldBy (set : DefinitionSet) (table : RenameTable) : DefinitionSet :=
  rewriteReferences { set with types := set.types.filter fun name _ => (table.get? name).isNone }
    table

/-- Folds duplicates in the scope; the result comes with the table of what was folded
(specification §4.4). -/
def foldDuplicates (set : DefinitionSet) (scope : FoldScope) :
    Except SchemaError (DefinitionSet × RenameTable) :=
  (set.foldTable scope).map fun table => (set.foldBy table, table)

end DefinitionSet

end SchemaLayout
