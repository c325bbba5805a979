import SchemaLayout.Pipeline
import SchemaLayout.Proofs.AtomicOperations.Stripping
import SchemaLayout.Proofs.Filters.Validity
import SchemaLayout.Proofs.Folding.Validity
import SchemaLayout.Proofs.Reserved.Table

/-!
# Validity along the pipeline

Stripping, renaming and folding give valid sets for valid ones; combining filters does so unless a
reference is left without its target (`Stage.valid_apply_iff`). Filters are combined first, so a run
ends with a broken invariant exactly when that happens to the set it started with
(`transform_broken_iff`).

**Results.**
* `passes_valid_iff`: both of these for every configuration, set and stage.
* `transform_broken_nestedVariants`: a filter whose base is a variant of another base behind it
  leaves a reference without its target.
-/
namespace SchemaLayout

variable {config : Config}

theorem Stage.valid_apply_iff {stage : Stage} {set result : DefinitionSet}
    {folded? : Option RenameTable} (hset : set.Valid)
    (h : stage.apply config set = .ok (result, folded?)) :
    result.Valid ↔ ¬(stage = .combineFilters ∧ set.StrandsReference) := by
  cases stage with
  | combineFilters =>
    obtain ⟨found, hfound, heq⟩ := Fallible.map_eq_ok.1 h
    cases heq
    rw [DefinitionSet.valid_combineFilters_iff hset hfound, and_iff_right rfl]
  | stripAtomicOperations =>
    cases h
    exact iff_of_true (DefinitionSet.valid_stripAtomicOperations hset) (by simp)
  | renameReserved =>
    obtain ⟨found, hfound, heq⟩ := Fallible.map_eq_ok.1 h
    cases heq
    exact iff_of_true (DefinitionSet.valid_renameReserved hset hfound) (by simp)
  | foldDuplicates =>
    obtain ⟨⟨found, table⟩, hfound, heq⟩ := Fallible.map_eq_ok.1 h
    cases heq
    obtain ⟨_, htable, heq⟩ := Fallible.map_eq_ok.1 hfound
    cases heq
    exact iff_of_true (Folding.valid_foldBy hset htable) (by simp)

namespace Transformed

variable {before after : Transformed} {stage broken : Stage} {cause : SchemaError}

theorem valid_advance (h : advance config before stage = .ok after) : after.set.Valid := by
  unfold advance at h
  split at h
  · cases h
  · split at h
    · cases h
    · rename_i hfault
      cases h
      exact DefinitionSet.fault?_eq_none_iff.1 hfault

/-- The set behind a stage that is passed is what its pass gives, and the report has the counts of
the stage and what it folded. -/
theorem report_of_advance (h : advance config before stage = .ok after) :
    ∃ folded?, stage.apply config before.set = .ok (after.set, folded?) ∧
      after.report.folded = folded?.getD before.report.folded ∧
      after.report.stages = before.report.stages ++ [⟨stage, before.set.types.size,
        after.set.types.size, before.set.enums.size, after.set.enums.size⟩] := by
  unfold advance at h
  split at h
  · cases h
  · rename_i folded? happly
    split at h
    · cases h
    · cases h
      exact ⟨folded?, happly, rfl, rfl⟩

theorem apply_of_advance (h : advance config before stage = .ok after) :
    ∃ folded?, stage.apply config before.set = .ok (after.set, folded?) := by
  obtain ⟨folded?, happly, -⟩ := report_of_advance h
  exact ⟨folded?, happly⟩

/-- The invariant breaks at the stage that is made, when its pass gives a set that is not valid. -/
theorem advance_broken_iff : advance config before stage = .error (.invariantBroken broken cause) ↔
    broken = stage ∧ ∃ result folded?, stage.apply config before.set = .ok (result, folded?) ∧
      result.fault? = some cause := by
  unfold advance
  cases happly : stage.apply config before.set with
  | error other => simp
  | ok result =>
    obtain ⟨result, folded?⟩ := result
    simp only [Except.ok.injEq, Prod.mk.injEq]
    cases hfault : result.fault? with
    | none =>
      simp only [reduceCtorEq, false_iff, not_and]
      rintro - ⟨_, _, ⟨rfl, -⟩, hsome⟩
      rw [hfault] at hsome
      cases hsome
    | some other =>
      simp only [Except.error.injEq, PipelineError.invariantBroken.injEq]
      constructor
      · rintro ⟨rfl, rfl⟩
        exact ⟨rfl, result, folded?, ⟨rfl, rfl⟩, hfault⟩
      · rintro ⟨rfl, _, _, ⟨rfl, -⟩, hsome⟩
        exact ⟨rfl, Option.some.inj (hfault.symm.trans hsome)⟩

theorem run_not_broken {stages : List Stage} (hstages : Stage.combineFilters ∉ stages)
    (hvalid : before.set.Valid) :
    stages.foldlM (advance config) before ≠ .error (.invariantBroken broken cause) := by
  induction stages generalizing before with
  | nil => intro h; cases h
  | cons stage stages ih =>
    obtain ⟨hstage, hrest⟩ := not_or.1 (mt List.mem_cons.2 hstages)
    intro h
    rcases Fallible.foldlM_cons_eq_error.1 h with hnow | ⟨next, hnext, hlater⟩
    · obtain ⟨-, result, folded?, happly, hfault⟩ := advance_broken_iff.1 hnow
      have hresult := (Stage.valid_apply_iff hvalid happly).2 fun h => hstage h.1.symm
      rw [DefinitionSet.fault?_eq_none_iff.2 hresult] at hfault
      cases hfault
    · exact ih hrest (valid_advance hnext) hlater

end Transformed

namespace Config

theorem stages_eq (config : Config) : ∃ rest, Stage.combineFilters ∉ rest ∧
    config.stages = if config.combineFilters then .combineFilters :: rest else rest := by
  refine ⟨[Stage.stripAtomicOperations, .renameReserved, .foldDuplicates].filter
    (·.isEnabled config), by simp, ?_⟩
  unfold stages Stage.order
  rw [List.filter_cons]
  rfl

theorem run_of_transform {set : DefinitionSet} {result : Transformed}
    (h : config.transform set = .ok result) : set.Valid ∧
      config.stages.foldlM (Transformed.advance config) ⟨set, .empty⟩ = .ok result := by
  unfold transform at h
  split at h
  · cases h
  · cases h
  · rename_i hfault
    exact ⟨DefinitionSet.fault?_eq_none_iff.1 hfault, h⟩

theorem valid_transform {set : DefinitionSet} {result : Transformed}
    (h : config.transform set = .ok result) : result.set.Valid := by
  obtain ⟨hset, hrun⟩ := run_of_transform h
  exact Fallible.foldlM_keeps (P := fun reached => reached.set.Valid)
    (fun _ hnext => Transformed.valid_advance hnext) hset hrun

/-- A run breaks the invariant only where filters are combined, and does so exactly when that
leaves a reference without its target. -/
theorem transform_broken_iff {set : DefinitionSet} {stage : Stage} :
    (∃ cause, config.transform set = .error (.invariantBroken stage cause)) ↔
      stage = .combineFilters ∧ config.conflict? = none ∧ set.Valid ∧
        config.combineFilters = true ∧ (∃ result, set.combineFilters = .ok result) ∧
          set.StrandsReference := by
  unfold transform
  cases hconflict : config.conflict? with
  | some conflict => simp
  | none =>
    rw [← DefinitionSet.fault?_eq_none_iff]
    cases hfault : set.fault? with
    | some fault => simp
    | none =>
      have hset := DefinitionSet.fault?_eq_none_iff.1 hfault
      obtain ⟨rest, hrest, hstages⟩ := config.stages_eq
      simp only [hstages, true_and]
      cases hcombine : config.combineFilters with
      | false =>
        simp only [Bool.false_eq_true, if_false, false_and, and_false, iff_false, not_exists]
        exact fun cause => Transformed.run_not_broken hrest hset
      | true =>
        simp only [if_true, true_and]
        constructor
        · rintro ⟨cause, h⟩
          rcases Fallible.foldlM_cons_eq_error.1 h with hnow | ⟨next, hnext, hlater⟩
          · obtain ⟨hstage, result, folded?, happly, hbroken⟩ :=
              Transformed.advance_broken_iff.1 hnow
            obtain ⟨found, hfound, heq⟩ := Fallible.map_eq_ok.1 happly
            cases heq
            refine ⟨hstage, ⟨_, hfound⟩, ?_⟩
            by_contra hstrands
            have hresult := (DefinitionSet.valid_combineFilters_iff hset hfound).2 hstrands
            rw [DefinitionSet.fault?_eq_none_iff.2 hresult] at hbroken
            cases hbroken
          · exact absurd hlater
              (Transformed.run_not_broken hrest (Transformed.valid_advance hnext))
        · rintro ⟨rfl, ⟨result, hresult⟩, hstrands⟩
          cases hbroken : result.fault? with
          | none =>
            have hvalid := DefinitionSet.fault?_eq_none_iff.1 hbroken
            exact absurd hstrands ((DefinitionSet.valid_combineFilters_iff hset hresult).1 hvalid)
          | some cause =>
            refine ⟨cause, Fallible.foldlM_cons_eq_error.2 (Or.inl ?_)⟩
            exact Transformed.advance_broken_iff.2
              ⟨rfl, result, none, Fallible.map_eq_ok.2 ⟨result, hresult, rfl⟩, hbroken⟩

/-- **The invariant of the pipeline.** A pass that succeeds on an accepted set gives an accepted
set, unless it combines filters and a reference is turned to a filter that is merged away after
that; and a run reports a broken invariant exactly when this happens to the set it was given. -/
theorem passes_valid_iff (config : Config) :
    (∀ {stage : Stage} {set result : DefinitionSet} {folded?}, set.validate = .ok () →
      stage.apply config set = .ok (result, folded?) →
        (result.validate = .ok () ↔ ¬(stage = .combineFilters ∧ set.StrandsReference))) ∧
    ∀ {set : DefinitionSet} {stage : Stage},
      (∃ cause, config.transform set = .error (.invariantBroken stage cause)) ↔
        stage = .combineFilters ∧ config.conflict? = none ∧ set.validate = .ok () ∧
          config.combineFilters = true ∧ (∃ result, set.combineFilters = .ok result) ∧
            set.StrandsReference := by
  refine ⟨fun hset happly => ?_, ?_⟩
  · rw [DefinitionSet.validate_eq_ok_iff] at hset ⊢
    exact Stage.valid_apply_iff hset happly
  · intro set stage
    rw [DefinitionSet.validate_eq_ok_iff]
    exact transform_broken_iff

def combining : Config := { Config.default with combineFilters := true }

/-- Filters `first` and `second`, and a model with a field that holds the first. -/
def withFilters (first second : String) : DefinitionSet :=
  ⟨.ofList [(first, ⟨first, .input, [], none⟩), (second, ⟨second, .input, [], none⟩),
    ("User", ⟨"User", .model, [⟨"name", .definition first, false, false⟩], none⟩)], ∅⟩

theorem passes_valid_variants :
    (withFilters "NestedZFilter" "NullableZFilter").validate = .ok () ∧
      Stage.combineFilters.apply combining (withFilters "NestedZFilter" "NullableZFilter")
        = .ok (withFilters "ZFilter" "ZFilter", none) ∧
      ¬(withFilters "NestedZFilter" "NullableZFilter").StrandsReference :=
  have hvalid : (withFilters "NestedZFilter" "NullableZFilter").validate = .ok () := by decide
  have happly : Stage.combineFilters.apply combining (withFilters "NestedZFilter" "NullableZFilter")
      = .ok (withFilters "ZFilter" "ZFilter", none) := by decide
  have hresult := ((passes_valid_iff combining).1 hvalid happly).1 (by decide)
  ⟨hvalid, happly, fun hstrands => hresult ⟨rfl, hstrands⟩⟩

theorem transform_broken_nestedVariants : ∃ (config : Config) (set : DefinitionSet) (stage : Stage)
    (cause : SchemaError), config.transform set = .error (.invariantBroken stage cause) :=
  ⟨combining, withFilters "NullNestedableZFilter" "NullableZFilter", .combineFilters,
    .danglingReference "User" "name" "NullableZFilter", by decide⟩

end Config

end SchemaLayout
