import SchemaLayout.Schema.Definition

/-!
# Declarations

What an output file declares: a type definition or an enum of the final set.
-/
namespace SchemaLayout

/-- A definition that is placed in a file. -/
inductive Declaration where
  | definition (type : TypeDefinition)
  | enumeration (enum : EnumDefinition)
  deriving DecidableEq, Repr

namespace Declaration

/-- The declared name. -/
def name : Declaration → String
  | .definition type => type.name
  | .enumeration enum => enum.name

/-- The written kind. -/
def kind : Declaration → String
  | .definition type => type.kind.name
  | .enumeration _ => "enum"

/-- The plural of the written kind. -/
def kindPlural : Declaration → String
  | .definition type => type.kind.plural
  | .enumeration _ => "enums"

/-- The suffix that names of this kind carry by convention. -/
def suffix? : Declaration → Option String
  | .definition type => type.kind.suffix?
  | .enumeration _ => none

/-- The entity that the declaration belongs to. -/
def sourceEntity? : Declaration → Option String
  | .definition type => type.sourceEntity?
  | .enumeration _ => none

/-- Each leaf that names a definition, with the field that it is in. -/
def references : Declaration → List (String × String)
  | .definition type =>
    type.fields.flatMap fun field =>
      (field.type.members.filterMap TypeRef.referencedName?).map (field.name, ·)
  | .enumeration _ => []

end Declaration

end SchemaLayout
