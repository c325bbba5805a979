import SchemaLayout.Schema.TypeRef

/-!
# Definitions (specification §3)

A `TypeDefinition` is a named list of fields of one of three kinds; an `EnumDefinition` is a named
list of values. Definitions refer to each other by name only.
-/
namespace SchemaLayout

/-- A field of a type definition. -/
structure Field where
  name : String
  type : TypeRef
  nullable : Bool
  isList : Bool
  deriving DecidableEq, Repr

/-- What a type definition is for. -/
inductive TypeKind where
  | model | input | output
  deriving DecidableEq, Repr

namespace TypeKind

/-- The written name of a kind. -/
def name : TypeKind → String
  | .model => "model"
  | .input => "input"
  | .output => "output"

/-- The plural of the written name. -/
def plural : TypeKind → String
  | .model => "models"
  | .input => "inputs"
  | .output => "outputs"

/-- The suffix that names of definitions of this kind carry by convention. -/
def suffix? : TypeKind → Option String
  | .model => none
  | .input => some "Input"
  | .output => some "Output"

end TypeKind

/-- A type with its fields. A definition without a source entity is shared between entities. -/
structure TypeDefinition where
  name : String
  kind : TypeKind
  fields : List Field
  sourceEntity? : Option String
  deriving DecidableEq, Repr

namespace TypeDefinition

/-- The first field of that name. -/
def field? (definition : TypeDefinition) (name : String) : Option Field :=
  definition.fields.find? (·.name == name)

/-- The type definitions that fields refer to, in order and with repeats. -/
def definitionNames (definition : TypeDefinition) : List String :=
  definition.fields.flatMap (·.type.definitionNames)

/-- The definition with every field put through `f`. -/
def mapFields (definition : TypeDefinition) (f : Field → Field) : TypeDefinition :=
  { definition with fields := definition.fields.map f }

end TypeDefinition

/-- An enum with its values. -/
structure EnumDefinition where
  name : String
  values : List String
  deriving DecidableEq, Repr

end SchemaLayout
