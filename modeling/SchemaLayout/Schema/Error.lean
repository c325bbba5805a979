import SchemaLayout.Schema.Definition

/-!
# Schema errors (specification §7)

What can be wrong with a set of definitions, with the rules for changing it or with a configuration.
`SchemaError.message` words each of them.
-/
namespace SchemaLayout

/-- Who claims a name. -/
inductive Claimant where
  | existing (name : String)
  | definition (kind : TypeKind) (name : String)
  | anyDefinition (name : String)
  | enumeration (name : String)
  | named (name : String)
  | mergedFilter
  deriving DecidableEq, Repr

namespace Claimant

/-- How the claimant is called in messages. -/
def text : Claimant → String
  | .existing name => s!"existing {name}"
  | .definition kind name => s!"{kind.name} {name}"
  | .anyDefinition name => s!"type {name}"
  | .enumeration name => s!"enum {name}"
  | .named name => name
  | .mergedFilter => "merged filter"

end Claimant

/-- Rules that cannot be followed together. -/
inductive RuleConflict where
  | renamedToItself (name : String)
  | renamedTwice (name first second : String)
  | targetRenamed (target source : String)
  | overrideToItself (name : String)
  | overrideTargetRenamed (target : String)
  | overrideTargetReserved (source target : String)
  | noSuffix (name : String)
  | suffixedNameReserved (name suffixed : String)
  | sharedDirectory (directory : String)
  | everyFileAnIndex (pattern indexFile : String)
  deriving DecidableEq, Repr

namespace RuleConflict

/-- The wording of a conflict. -/
def text : RuleConflict → String
  | .renamedToItself name => s!"rename of '{name}' maps the name to itself"
  | .renamedTwice name first second => s!"'{name}' is renamed to both '{first}' and '{second}'"
  | .targetRenamed target source =>
    s!"rename target '{target}' (from '{source}') is itself renamed"
  | .overrideToItself name => s!"rename override maps '{name}' to itself"
  | .overrideTargetRenamed target => s!"rename override target '{target}' is itself renamed"
  | .overrideTargetReserved source target =>
    s!"rename override '{source}' -> '{target}' targets a reserved name"
  | .noSuffix name => s!"rename.suffix is empty, reserved name '{name}' has no override"
  | .suffixedNameReserved name suffixed =>
    s!"reserved name '{name}' would be renamed to '{suffixed}', which is also reserved"
  | .sharedDirectory directory =>
    s!"shared_directory must be a single path segment, got '{directory}'"
  | .everyFileAnIndex pattern indexFile =>
    s!"output_file_pattern '{pattern}' names every file '{indexFile}', " ++
      "which is reserved for re-export indexes"

end RuleConflict

/-- Definitions that break a rule of the set on their own. -/
inductive DefinitionFault where
  | typeUnderOtherName (key name : String)
  | enumUnderOtherName (key name : String)
  | repeatedField (definition field : String)
  | unnormalizedUnion (definition field : String)
  | nestedUnion (definition field : String)
  deriving DecidableEq, Repr

namespace DefinitionFault

/-- The wording of a fault. -/
def text : DefinitionFault → String
  | .typeUnderOtherName key name => s!"type keyed as '{key}' is named '{name}'"
  | .enumUnderOtherName key name => s!"enum keyed as '{key}' is named '{name}'"
  | .repeatedField definition field => s!"field '{field}' declared twice in '{definition}'"
  | .unnormalizedUnion definition field =>
    s!"field '{definition}.{field}' has a non-normalized union"
  | .nestedUnion definition field => s!"field '{definition}.{field}' has a nested union"

end DefinitionFault

/-- Why a schema is refused. -/
inductive SchemaError where
  /-- Two filters that are merged disagree on a field. -/
  | incompatibleFilters (left right : String) (leftField rightField : Field)
  /-- A field refers to a name that the set does not have. -/
  | danglingReference (definition field target : String)
  /-- Two definitions claim one name. -/
  | nameCollision (name : String) (first second : Claimant)
  /-- A configuration file that cannot be read or is no configuration. -/
  | invalidConfig
  /-- Rules that contradict each other. -/
  | conflict (cause : RuleConflict)
  /-- A definition that is not well formed. -/
  | invalidDefinition (fault : DefinitionFault)
  deriving DecidableEq, Repr

namespace SchemaError

/-- The written type of a field with its list mark. -/
def fieldText (field : Field) : String :=
  field.type.text ++ if field.isList then "[]" else ""

/-- The wording of an error. -/
def message : SchemaError → String
  | .incompatibleFilters left right leftField rightField =>
    s!"Incompatible filter variants '{left}' and '{right}' on field '{rightField.name}' " ++
      s!"({fieldText leftField} vs {fieldText rightField})"
  | .danglingReference definition field target =>
    s!"Dangling reference: '{definition}.{field}' refers to unknown '{target}'"
  | .nameCollision name first second =>
    s!"Naming collision: '{first.text}' and '{second.text}' claim the same name '{name}'"
  | .invalidConfig => "Invalid configuration"
  | .conflict cause => s!"Configuration conflict: {cause.text}"
  | .invalidDefinition fault => s!"Invalid definition set: {fault.text}"

end SchemaError

end SchemaLayout
