import SchemaLayout.Proofs.Pipeline.Validity

/-!
# Sequences of operations

Sets are built and changed by the operations of `Operation`; one that fails leaves the set as it was
(`Operation.perform`). None of them looks at whether the set is valid, but for runs of the pipeline.
Still, each keeps every definition under its own name and types apart from enums
(`Operation.keyed_perform`), so this holds of whatever is reached.

**Result.** `keyed_run`: whatever operations lead to from the set without definitions is keyed.
-/
namespace SchemaLayout

/-- What is done to a set. -/
inductive Operation where
  | insertType (definition : TypeDefinition)
  | insertEnum (definition : EnumDefinition)
  | rewriteReferences (table : RenameTable)
  | applyRenames (table : RenameTable)
  | combineFilters
  | stripAtomicOperations
  | renameReserved (rules : RenameRules)
  | foldDuplicates (scope : FoldScope)
  | transform (config : Config)

namespace Operation

/-- What an operation makes of a set, unless it fails. -/
def result? (set : DefinitionSet) : Operation → Option DefinitionSet
  | .insertType definition => (set.insertType definition).toOption
  | .insertEnum definition => (set.insertEnum definition).toOption
  | .rewriteReferences table => some (set.rewriteReferences table)
  | .applyRenames table => (set.applyRenames table).toOption
  | .combineFilters => set.combineFilters.toOption
  | .stripAtomicOperations => some set.stripAtomicOperations
  | .renameReserved rules => (set.renameReserved rules).toOption
  | .foldDuplicates scope => (set.foldDuplicates scope).toOption.map (·.1)
  | .transform config => (config.transform set).toOption.map (·.set)

/-- The set after an operation. -/
def perform (set : DefinitionSet) (operation : Operation) : DefinitionSet :=
  (operation.result? set).getD set

variable {set result : DefinitionSet}

theorem keyed_result? (hset : set.Keyed) {operation : Operation}
    (h : operation.result? set = some result) : result.Keyed := by
  cases operation with
  | insertType definition => exact hset.insertType (Fallible.eq_ok_of_toOption h)
  | insertEnum definition => exact hset.insertEnum (Fallible.eq_ok_of_toOption h)
  | rewriteReferences table =>
    cases h
    exact hset.rewriteReferences table
  | applyRenames table => exact hset.applyRenames (Fallible.eq_ok_of_toOption h)
  | combineFilters => exact hset.combineFilters (Fallible.eq_ok_of_toOption h)
  | stripAtomicOperations =>
    cases h
    exact hset.stripAtomicOperations
  | renameReserved rules => exact hset.renameReserved (Fallible.eq_ok_of_toOption h)
  | foldDuplicates scope =>
    obtain ⟨folded, hfolded, rfl⟩ := Option.map_eq_some_iff.1 h
    obtain ⟨table, -, rfl⟩ := Fallible.map_eq_ok.1 (Fallible.eq_ok_of_toOption hfolded)
    exact Folding.keyed_foldBy hset table
  | transform config =>
    obtain ⟨reached, hreached, rfl⟩ := Option.map_eq_some_iff.1 h
    exact (Config.valid_transform (Fallible.eq_ok_of_toOption hreached)).toKeyed

theorem keyed_perform (hset : set.Keyed) (operation : Operation) :
    (operation.perform set).Keyed := by
  unfold perform
  cases h : operation.result? set with
  | none => exact hset
  | some result => exact keyed_result? hset h

end Operation

namespace DefinitionSet

/-- The set that a sequence of operations leads to. -/
def run (set : DefinitionSet) (operations : List Operation) : DefinitionSet :=
  operations.foldl Operation.perform set

theorem Keyed.run {set : DefinitionSet} (h : set.Keyed) (operations : List Operation) :
    (set.run operations).Keyed := by
  induction operations generalizing set with
  | nil => exact h
  | cons operation operations ih => exact ih (Operation.keyed_perform h operation)

/-- **Names in reached sets.** Whatever operations are made on the set without definitions, every
type and every enum is held under its own name, and no name is both a type and an enum. -/
theorem keyed_run (operations : List Operation) : (run ∅ operations).Keyed :=
  keyed_empty.run operations

end DefinitionSet

end SchemaLayout
