import Mathlib.Data.List.Chain
import SchemaLayout.Proofs.Names.Entries
import SchemaLayout.Proofs.Pipeline.Settling

/-!
# What a report accounts for

Every pass keeps the number of enums and gives no more types than it was given
(`Stage.counts_apply`): merged filters come under names that definitions were placed at, stripping
and folding only take types away, and renaming gives names that are apart. So the reports of a run,
one after the other, lead from the counts of the set it was given to those of the set it gives
(`Accounts.step`, `Accounts.run`). Folding is made last, so what it folded is what the final set
lacks.

**Result.** `transform_accounts`: the report of every run that ends well accounts for it.
-/
namespace SchemaLayout

/-! ## Numbers of definitions behind a pass -/

namespace DefinitionSet

variable {set result : DefinitionSet}

/-- Merging filters brings no definition in. -/
theorem size_combineFilters (hset : set.Valid) (h : set.combineFilters = .ok result) :
    result.types.size ≤ set.types.size ∧ result.enums = set.enums := by
  rcases combineFilters_cases h with ⟨-, rfl⟩ | ⟨-, types, htypes, rfl⟩
  · exact ⟨Nat.le_refl _, rfl⟩
  have hplaced := (Filters.placed_nil hset).run hset.toKeyed rfl htypes
  refine ⟨?_, enums_rewriteReferences _ _⟩
  exact NameMap.size_le_of_source (fun old => (Filters.placeAfter set.filterGroups.entries old).1)
    fun name hname => hplaced.taken.1 (mem_rewriteReferences.1 hname)

theorem size_stripAtomicOperations :
    set.stripAtomicOperations.types.size ≤ set.types.size := by
  refine NameMap.size_le_of_source id fun name hname => ?_
  obtain ⟨definition, hget⟩ := NameMap.mem_iff_get?.1 hname
  obtain ⟨old, hold, -⟩ := exists_of_get?_stripAtomicOperations hget
  exact ⟨name, NameMap.mem_of_get? hold, rfl⟩

theorem size_renameReserved {rules : RenameRules} (hset : set.Keyed)
    (h : set.renameReserved rules = .ok result) :
    result.types.size = set.types.size ∧ result.enums.size = set.enums.size := by
  obtain ⟨table, -, hresult⟩ := renameReserved_eq_ok_iff.1 h
  split at hresult
  · cases hresult
    exact ⟨rfl, rfl⟩
  · obtain ⟨happ, rfl⟩ := applyRenames_eq_ok_iff.1 hresult
    exact size_applyRenames hset happ

/-- Folding takes away as many types as its table has entries. -/
theorem size_foldBy {scope : FoldScope} {table : RenameTable} (hset : set.Valid)
    (htable : set.foldTable scope = .ok table) :
    (set.foldBy table).types.size + table.size = set.types.size := by
  have hentry : ∀ name, name ∈ table.entries ↔ ¬table.get? name = none := fun name =>
    (not_congr NameMap.get?_eq_none_iff |>.trans not_not).symm
  refine NameMap.size_add_size (fun name => ?_) fun name hname => ?_
  · rw [Folding.mem_foldBy, hentry]
    cases hget : table.get? name with
    | none => simp
    | some target => simp [(Folding.foldTable_target hset.foldable htable hget).1]
  · rw [hentry, not_not]
    exact (Folding.mem_foldBy.1 hname).1

end DefinitionSet

/-- What a stage does to the numbers of definitions, and what it reports as folded. -/
structure Stage.Counts (stage : Stage) (before after : DefinitionSet)
    (folded? : Option RenameTable) : Prop where
  enums : after.enums.size = before.enums.size
  types : after.types.size ≤ before.types.size
  renamed : stage = .renameReserved → after.types.size = before.types.size
  folded : stage = .foldDuplicates → ∃ table, folded? = some table ∧
    after.types.size + table.size = before.types.size ∧
    ∀ name target, table.get? name = some target →
      after.containsName name = false ∧ target ∈ after.types
  unfolded : stage ≠ .foldDuplicates → folded? = none

theorem Stage.counts_apply {config : Config} {stage : Stage} {set result : DefinitionSet}
    {folded? : Option RenameTable} (hset : set.Valid)
    (h : stage.apply config set = .ok (result, folded?)) : stage.Counts set result folded? := by
  cases stage with
  | combineFilters =>
    obtain ⟨found, hfound, heq⟩ := Fallible.map_eq_ok.1 h
    cases heq
    obtain ⟨htypes, henums⟩ := DefinitionSet.size_combineFilters hset hfound
    exact ⟨congrArg _ henums, htypes, by simp, by simp, fun _ => rfl⟩
  | stripAtomicOperations =>
    cases h
    have henums : set.stripAtomicOperations.enums = set.enums :=
      DefinitionSet.enums_stripAtomicOperations
    exact ⟨congrArg _ henums, DefinitionSet.size_stripAtomicOperations, by simp, by simp,
      fun _ => rfl⟩
  | renameReserved =>
    obtain ⟨found, hfound, heq⟩ := Fallible.map_eq_ok.1 h
    cases heq
    obtain ⟨htypes, henums⟩ := DefinitionSet.size_renameReserved hset.toKeyed hfound
    exact ⟨henums, Nat.le_of_eq htypes, fun _ => htypes, by simp, fun _ => rfl⟩
  | foldDuplicates =>
    obtain ⟨⟨found, table⟩, hfound, heq⟩ := Fallible.map_eq_ok.1 h
    cases heq
    obtain ⟨_, htable, heq⟩ := Fallible.map_eq_ok.1 hfound
    cases heq
    have hsize := DefinitionSet.size_foldBy hset htable
    refine ⟨congrArg _ Folding.enums_foldBy, by omega, by simp, fun _ => ?_, by simp⟩
    refine ⟨_, rfl, hsize, fun name target hget => ?_⟩
    obtain ⟨hname, htarget, hfree⟩ := Folding.foldTable_target hset.foldable htable hget
    refine ⟨Bool.eq_false_iff.2 fun hmem => ?_, Folding.mem_foldBy.2 ⟨hfree, htarget⟩⟩
    rw [DefinitionSet.containsName_iff, Folding.mem_foldBy, Folding.enums_foldBy, hget] at hmem
    rcases hmem with ⟨hnone, -⟩ | henum
    · cases hnone
    · exact hset.disjoint hname henum

/-! ## Along a run -/

/-- The report of the stages made so far accounts for what they made of a set. -/
structure Accounts (set : DefinitionSet) (done : List Stage) (reached : Transformed) : Prop where
  stages : reached.report.stages.map (·.stage) = done
  /-- Without a stage, the set is as it was. -/
  kept : done = [] → reached.set = set
  /-- The first counts are those of the set that was given. -/
  first : ∀ report ∈ reached.report.stages.head?,
    report.typesBefore = set.types.size ∧ report.enumsBefore = set.enums.size
  /-- Every stage begins with the counts that the one before it ended with. -/
  linked : reached.report.stages.IsChain fun earlier later =>
    later.typesBefore = earlier.typesAfter ∧ later.enumsBefore = earlier.enumsAfter
  /-- The last counts are those of the set that was reached. -/
  last : ∀ report ∈ reached.report.stages.getLast?,
    report.typesAfter = reached.set.types.size ∧ report.enumsAfter = reached.set.enums.size
  enums : ∀ report ∈ reached.report.stages, report.enumsAfter = report.enumsBefore
  types : ∀ report ∈ reached.report.stages, report.typesAfter ≤ report.typesBefore
  renamed : ∀ report ∈ reached.report.stages, report.stage = .renameReserved →
    report.typesAfter = report.typesBefore
  folded : ∀ report ∈ reached.report.stages, report.stage = .foldDuplicates →
    report.typesAfter + reached.report.folded.size = report.typesBefore
  /-- What was folded is gone, and what it was folded into is there. -/
  survivors : ∀ name target, reached.report.folded.get? name = some target →
    reached.set.containsName name = false ∧ target ∈ reached.set.types
  unfolded : .foldDuplicates ∉ done → reached.report.folded = ∅

namespace Accounts

open Transformed

variable {config : Config} {set : DefinitionSet} {done next rest : List Stage}
  {before after : Transformed}

theorem mem_stages (h : Accounts set done before) {report : StageReport}
    (hreport : report ∈ before.report.stages) : report.stage ∈ done :=
  h.stages ▸ List.mem_map_of_mem hreport

theorem step {stage : Stage} (haccounts : Accounts set done before) (hvalid : before.set.Valid)
    (hstages : config.stages = done ++ stage :: rest)
    (h : advance config before stage = .ok after) : Accounts set (done ++ [stage]) after := by
  obtain ⟨folded?, happly, hfolded, hreports⟩ := report_of_advance h
  have hcounts := Stage.counts_apply hvalid happly
  obtain ⟨hunfolded, -⟩ := Config.eq_foldDuplicates_of_stages hstages
  have hnone : stage ≠ .foldDuplicates → after.report.folded = ∅ := by
    intro hstage
    rw [hfolded, hcounts.unfolded hstage, Option.getD_none, haccounts.unfolded hunfolded]
  generalize hnew : StageReport.mk stage before.set.types.size after.set.types.size
    before.set.enums.size after.set.enums.size = new at hreports
  have hall : ∀ {P : StageReport → Prop}, (∀ report ∈ before.report.stages, P report) → P new →
      ∀ report ∈ after.report.stages, P report := by
    intro P hold hlast report hreport
    rw [hreports] at hreport
    rcases List.mem_append.1 hreport with hmem | hmem
    · exact hold report hmem
    · rwa [List.mem_singleton.1 hmem]
  subst hnew
  exact {
    stages := by
      rw [hreports, List.map_append, haccounts.stages]
      rfl
    kept := by simp
    first := by
      intro report hfirst
      rw [hreports, List.head?_append] at hfirst
      cases hbefore : before.report.stages with
      | nil =>
        have hnone : done = [] := by rw [← haccounts.stages, hbefore]; rfl
        rw [hbefore] at hfirst
        cases hfirst
        rw [haccounts.kept hnone]
        exact ⟨rfl, rfl⟩
      | cons head tail =>
        rw [hbefore] at hfirst
        exact haccounts.first report (hbefore ▸ hfirst)
    linked := by
      rw [hreports, List.isChain_append]
      refine ⟨haccounts.linked, .singleton _, fun earlier hearlier later hlater => ?_⟩
      cases hlater
      obtain ⟨htypes, henums⟩ := haccounts.last earlier hearlier
      exact ⟨htypes.symm, henums.symm⟩
    last := by
      intro report hlast
      rw [hreports, List.getLast?_concat] at hlast
      cases hlast
      exact ⟨rfl, rfl⟩
    enums := hall haccounts.enums hcounts.enums
    types := hall haccounts.types hcounts.types
    renamed := hall haccounts.renamed hcounts.renamed
    folded := by
      refine hall (fun report hreport hstage => ?_) fun hstage => ?_
      · -- no stage before this one folded anything
        exact absurd (hstage ▸ haccounts.mem_stages hreport) hunfolded
      · obtain ⟨table, rfl, hsize, -⟩ := hcounts.folded hstage
        rw [hfolded]
        exact hsize
    survivors := by
      intro name target hget
      by_cases hstage : stage = .foldDuplicates
      · obtain ⟨table, rfl, -, hsurvivors⟩ := hcounts.folded hstage
        rw [hfolded] at hget
        exact hsurvivors name target hget
      · rw [hnone hstage] at hget
        cases hget
    unfolded := fun hout => hnone fun hstage => hout (by simp [hstage]) }

theorem run (haccounts : Accounts set done before) (hvalid : before.set.Valid)
    (hstages : config.stages = done ++ (next ++ rest))
    (h : next.foldlM (advance config) before = .ok after) :
    Accounts set (done ++ next) after :=
  (Fallible.foldlM_keeps_done
    (P := fun done reached => Accounts set done reached ∧ reached.set.Valid)
    (fun hsplit hreached hnext => ⟨hreached.1.step hreached.2 hsplit hnext, valid_advance hnext⟩)
    rest hstages ⟨haccounts, hvalid⟩ h).1

end Accounts

end SchemaLayout
