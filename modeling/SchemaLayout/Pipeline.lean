import SchemaLayout.Pass.AtomicOperations
import SchemaLayout.Pass.Filters
import SchemaLayout.Pass.Folding
import SchemaLayout.Pass.ReservedNames

/-!
# The pipeline of passes (specification §4.5)

`Config.transform` makes the passes that a configuration asks for, always in the order of
`Stage.order`: filters are combined before names are checked, and duplicates are looked for last,
among final names and field types. The set has to be valid before the first pass and after each; the
report says what every stage did to the numbers of definitions.
-/
namespace SchemaLayout

/-- A pass of the pipeline. -/
inductive Stage where
  | combineFilters | stripAtomicOperations | renameReserved | foldDuplicates
  deriving DecidableEq, Repr

namespace Stage

/-- The order in which passes are made. -/
def order : List Stage :=
  [.combineFilters, .stripAtomicOperations, .renameReserved, .foldDuplicates]

/-- The written name of a stage. -/
def name : Stage → String
  | .combineFilters => "combine_scalar_filters"
  | .stripAtomicOperations => "strip_atomic_operations"
  | .renameReserved => "rename_types"
  | .foldDuplicates => "deduplicate_types"

/-- Whether a configuration asks for the stage. -/
def isEnabled (config : Config) : Stage → Bool
  | .combineFilters => config.combineFilters
  | .stripAtomicOperations => !config.keepAtomicOperations
  | .renameReserved => config.renameTypes
  | .foldDuplicates => config.foldScope != .none

/-- Advice for a failure of the stage. -/
def hint? : Stage → SchemaError → Option String
  | .combineFilters, .incompatibleFilters .. =>
    some "disable combine_scalar_filters or align the variant field types"
  | .renameReserved, .nameCollision name _ _ =>
    some s!"'{name}' is already taken; add a [rename.overrides] entry with an unused name"
  | _, .danglingReference .. => some "the input definition set is incomplete; regenerate it"
  | _, _ => none

end Stage

/-- The stages that a configuration asks for, in order. -/
def Config.stages (config : Config) : List Stage :=
  Stage.order.filter (·.isEnabled config)

/-- Why a run of the pipeline ends without a result. -/
inductive PipelineError where
  | badConfig (cause : SchemaError)
  | badInput (cause : SchemaError)
  | stageFailed (stage : Stage) (cause : SchemaError)
  /-- A stage gave a set that is not valid. -/
  | invariantBroken (stage : Stage) (cause : SchemaError)
  deriving DecidableEq

namespace PipelineError

/-- The error of the schema or configuration behind it. -/
def cause : PipelineError → SchemaError
  | .badConfig cause | .badInput cause | .stageFailed _ cause | .invariantBroken _ cause => cause

/-- The stage that failed. -/
def stage? : PipelineError → Option Stage
  | .stageFailed stage _ | .invariantBroken stage _ => some stage
  | _ => none

/-- Advice for the failure. -/
def hint? : PipelineError → Option String
  | .stageFailed stage cause => stage.hint? cause
  | _ => none

/-- The wording of an error, with the advice at its end. -/
def message : PipelineError → String
  | .badConfig cause => s!"Configuration error: {cause.message}"
  | .badInput cause => s!"Input definition set is invalid: {cause.message}"
  | .stageFailed stage cause =>
    s!"Transform failed: {stage.name} - {cause.message}" ++
      match stage.hint? cause with
      | some hint => s!" (hint: {hint})"
      | none => ""
  | .invariantBroken stage cause => s!"Invariant violated after {stage.name}: {cause.message}"

end PipelineError

/-- The numbers of definitions before and after a stage. -/
structure StageReport where
  stage : Stage
  typesBefore : Nat
  typesAfter : Nat
  enumsBefore : Nat
  enumsAfter : Nat
  deriving DecidableEq, Repr

/-- What a run did. -/
structure RunReport where
  stages : List StageReport
  /-- The definitions folded away, each with the one that it became. -/
  folded : RenameTable
  deriving DecidableEq

namespace RunReport

/-- The report of a run that made no pass yet. -/
def empty : RunReport := ⟨[], ∅⟩

/-- Whether the run made a stage. -/
def ran (report : RunReport) (stage : Stage) : Bool :=
  report.stages.any (·.stage == stage)

end RunReport

/-- The set after one pass, with the table of definitions folded by it, if it folds any. -/
def Stage.apply (config : Config) (set : DefinitionSet) :
    Stage → Except SchemaError (DefinitionSet × Option RenameTable)
  | .combineFilters => set.combineFilters.map (·, none)
  | .stripAtomicOperations => .ok (set.stripAtomicOperations, none)
  | .renameReserved => (set.renameReserved config.rename).map (·, none)
  | .foldDuplicates => (set.foldDuplicates config.foldScope).map fun (set, table) =>
    (set, some table)

/-- A set of definitions and what led to it. -/
structure Transformed where
  set : DefinitionSet
  report : RunReport
  deriving DecidableEq

namespace Transformed

/-- Makes one more stage. -/
def advance (config : Config) (before : Transformed) (stage : Stage) :
    Except PipelineError Transformed :=
  match stage.apply config before.set with
  | .error cause => .error (.stageFailed stage cause)
  | .ok (set, folded?) =>
    match set.fault? with
    | some cause => .error (.invariantBroken stage cause)
    | none =>
      .ok
        { set
          report :=
            { stages := before.report.stages ++ [
                { stage
                  typesBefore := before.set.types.size
                  typesAfter := set.types.size
                  enumsBefore := before.set.enums.size
                  enumsAfter := set.enums.size }]
              folded := folded?.getD before.report.folded } }

end Transformed

/-- Makes every pass that the configuration asks for (specification §4.5). -/
def Config.transform (config : Config) (set : DefinitionSet) : Except PipelineError Transformed :=
  match config.conflict?, set.fault? with
  | some cause, _ => .error (.badConfig (.conflict cause))
  | none, some cause => .error (.badInput cause)
  | none, none => config.stages.foldlM (Transformed.advance config) ⟨set, .empty⟩

end SchemaLayout
