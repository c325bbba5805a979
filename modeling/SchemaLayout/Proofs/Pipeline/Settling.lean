import SchemaLayout.Proofs.Folding.Fixpoint
import SchemaLayout.Proofs.Pipeline.Validity
import SchemaLayout.Proofs.Reserved.Idempotence

/-!
# What a run settles

Renaming leaves no reserved name (`avoids_renameReserved`), because rules without a conflict give
out none (`RenameRules.not_mem_reserved`). Folding takes names away and adds none, and leaves
nothing to fold. Stages come in a fixed order (`pairwise_stages`), so what is settled at one point
of a run is settled from there on (`Settled.step`, `Settled.run`).

**Result.** `transform_settled`: a run that renames ends without reserved names and, where it folds,
with nothing to fold; and this holds from the stage on that brings it about.
-/
namespace SchemaLayout

/-! ## Names to avoid -/

namespace DefinitionSet

variable {set result : DefinitionSet} {names : List String}

/-- No definition has one of the names, and no leaf refers to one. -/
def Avoids (set : DefinitionSet) (names : List String) : Prop :=
  ∀ name ∈ names, set.containsName name = false ∧
    ∀ reference ∈ set.references, reference.target.referencedName? ≠ some name

theorem Valid.avoids_iff (hset : set.Valid) :
    set.Avoids names ↔ ∀ name ∈ names, set.containsName name = false := by
  refine forall₂_congr fun name _ => and_iff_left_of_imp fun hfree => ?_
  refine (forall_references_iff (P := fun leaf => leaf.referencedName? ≠ some name)).2 ?_
  intro key definition hget leaf hleaf hname
  have hmem := containsName_of_referencedName? (hset.resolved hget leaf hleaf) hname
  rw [hfree] at hmem
  cases hmem

end DefinitionSet

/-- Rules without a conflict give out no reserved name. -/
theorem RenameRules.not_mem_reserved {rules : RenameRules} (h : rules.conflict? = none)
    {name target : String} (htarget : rules.replacement? name = some target) :
    target ∉ rules.reserved := by
  obtain ⟨hoverrides, hreserved⟩ := conflict?_eq_none_iff.1 h
  cases hget : rules.overrides.get? name with
  | some other =>
    rw [replacement?_of_override hget] at htarget
    cases htarget
    exact (hoverrides name _ hget).2.2
  | none =>
    have hout := NameMap.get?_eq_none_iff.1 hget
    rw [replacement?_of_not_mem hout] at htarget
    split at htarget
    · rename_i hres
      cases htarget
      exact (hreserved name hres hout).2
    · cases htarget

theorem RenameRules.replacement?_ne_none {rules : RenameRules} {name : String}
    (h : name ∈ rules.reserved) : rules.replacement? name ≠ none := by
  by_cases hover : name ∈ rules.overrides
  · obtain ⟨target, hget⟩ := NameMap.mem_iff_get?.1 hover
    rw [replacement?_of_override hget]
    exact Option.some_ne_none _
  · rw [replacement?_of_not_mem hover, if_pos h]
    exact Option.some_ne_none _

namespace DefinitionSet

variable {set result : DefinitionSet}

theorem avoids_renameReserved {rules : RenameRules} (hset : set.Valid)
    (h : set.renameReserved rules = .ok result) : result.Avoids rules.reserved := by
  refine (valid_renameReserved hset h).avoids_iff.2 fun name hname => Bool.eq_false_iff.2 ?_
  intro hmem
  obtain ⟨table, htable, hresult⟩ := renameReserved_eq_ok_iff.1 h
  obtain ⟨old, hold, rfl⟩ := (containsName_renameReserved hset.toKeyed hresult).1 hmem
  rcases given_or_kept htable hold with hgiven | ⟨hkept, hnone⟩
  · exact RenameRules.not_mem_reserved (conflict?_of_renameTable htable) hgiven hname
  · rw [hkept] at hname
    exact RenameRules.replacement?_ne_none hname hnone

theorem foldTable_of_foldDuplicates {scope : FoldScope} {table : RenameTable} (hset : set.Valid)
    (h : set.foldDuplicates scope = .ok (result, table)) : result.foldTable scope = .ok ∅ := by
  obtain ⟨found, hfound, heq⟩ := Fallible.map_eq_ok.1 h
  cases heq
  exact Folding.foldTable_foldBy hset hfound

theorem Avoids.foldDuplicates {names : List String} {scope : FoldScope} {table : RenameTable}
    (havoids : set.Avoids names) (hset : set.Valid)
    (h : set.foldDuplicates scope = .ok (result, table)) : result.Avoids names := by
  obtain ⟨found, hfound, heq⟩ := Fallible.map_eq_ok.1 h
  cases heq
  refine (Folding.valid_foldBy hset hfound).avoids_iff.2 fun name hname => ?_
  have hfree := hset.avoids_iff.1 havoids name hname
  rw [Bool.eq_false_iff, ne_eq, containsName_iff, not_or] at hfree ⊢
  rw [Folding.mem_foldBy, Folding.enums_foldBy]
  exact ⟨fun hmem => hfree.1 hmem.2, hfree.2⟩

end DefinitionSet

/-! ## The order of stages -/

namespace Config

variable {config : Config}

theorem pairwise_stages (config : Config) :
    config.stages.Pairwise fun a b => Stage.order.idxOf a < Stage.order.idxOf b :=
  List.Pairwise.filter _ (by decide)

/-- After renaming there is only folding to do, and after folding nothing. -/
theorem eq_foldDuplicates_of_stages {done rest : List Stage} {stage : Stage}
    (h : config.stages = done ++ stage :: rest) : .foldDuplicates ∉ done ∧
      (.renameReserved ∈ done → stage = .foldDuplicates) := by
  have hordered := config.pairwise_stages
  rw [h, List.pairwise_append] at hordered
  have hbefore := fun earlier hmem => hordered.2.2 earlier hmem stage List.mem_cons_self
  refine ⟨fun hmem => ?_, fun hmem => ?_⟩
  · have hlt := hbefore _ hmem
    revert hlt
    cases stage <;> decide
  · have hlt := hbefore _ hmem
    revert hlt
    cases stage <;> decide

end Config

/-! ## Along a run -/

/-- What the stages made so far have settled. -/
structure Settled (config : Config) (done : List Stage) (set : DefinitionSet) : Prop where
  valid : set.Valid
  renamed : .renameReserved ∈ done → set.Avoids config.rename.reserved
  folded : .foldDuplicates ∈ done → set.foldTable config.foldScope = .ok ∅

namespace Settled

open Transformed

variable {config : Config} {done next rest : List Stage} {before after : Transformed}

theorem step {stage : Stage} (hsettled : Settled config done before.set)
    (hstages : config.stages = done ++ stage :: rest)
    (h : advance config before stage = .ok after) : Settled config (done ++ [stage]) after.set := by
  obtain ⟨folded?, happly⟩ := apply_of_advance h
  obtain ⟨hunfolded, hlast⟩ := Config.eq_foldDuplicates_of_stages hstages
  refine ⟨valid_advance h, fun hmem => ?_, fun hmem => ?_⟩
  · rcases List.mem_append.1 hmem with hdone | hnow
    · -- a name that is gone could come back only with the folding of duplicates
      obtain rfl := hlast hdone
      obtain ⟨⟨found, table⟩, hfound, heq⟩ := Fallible.map_eq_ok.1 happly
      cases heq
      exact (hsettled.renamed hdone).foldDuplicates hsettled.valid hfound
    · obtain rfl := List.mem_singleton.1 hnow
      obtain ⟨found, hfound, heq⟩ := Fallible.map_eq_ok.1 happly
      cases heq
      exact DefinitionSet.avoids_renameReserved hsettled.valid hfound
  · rcases List.mem_append.1 hmem with hdone | hnow
    · exact absurd hdone hunfolded
    · obtain rfl := List.mem_singleton.1 hnow
      obtain ⟨⟨found, table⟩, hfound, heq⟩ := Fallible.map_eq_ok.1 happly
      cases heq
      exact DefinitionSet.foldTable_of_foldDuplicates hsettled.valid hfound

theorem run (hsettled : Settled config done before.set)
    (hstages : config.stages = done ++ (next ++ rest))
    (h : next.foldlM (advance config) before = .ok after) :
    Settled config (done ++ next) after.set :=
  Fallible.foldlM_keeps_done (P := fun done reached => Settled config done reached.set)
    (fun hsplit hreached hnext => hreached.step hsplit hnext) rest hstages hsettled h

end Settled

/-- **What a run settles.** Where the configuration asks for renaming, no definition of the set that
a run ends with has a reserved name and no reference is to one; and where it asks for folding, there
is nothing to fold. Whatever the stages made are, if renaming is among them the set reached by them
is free of reserved names already, and if folding is, there is nothing to fold. -/
theorem Config.transform_settled {config : Config} {set : DefinitionSet} {result : Transformed}
    (hrename : config.renameTypes = true) (h : config.transform set = .ok result) :
    result.set.Avoids config.rename.reserved ∧
    (config.foldScope ≠ .none → result.set.foldTable config.foldScope = .ok ∅) ∧
    ∀ done rest, config.stages = done ++ rest →
      ∃ reached, done.foldlM (Transformed.advance config) ⟨set, .empty⟩ = .ok reached ∧
        rest.foldlM (Transformed.advance config) reached = .ok result ∧
        (.renameReserved ∈ done → reached.set.Avoids config.rename.reserved) ∧
        (.foldDuplicates ∈ done → reached.set.foldTable config.foldScope = .ok ∅) := by
  obtain ⟨hset, hrun⟩ := run_of_transform h
  have hstart : Settled config [] (Transformed.mk set .empty).set := {
    valid := hset
    renamed := fun hmem => absurd hmem List.not_mem_nil
    folded := fun hmem => absurd hmem List.not_mem_nil }
  have hall : config.stages = [] ++ (config.stages ++ []) := by
    rw [List.nil_append, List.append_nil]
  have hsettled : Settled config config.stages result.set := hstart.run hall hrun
  have hmem : ∀ {stage : Stage}, stage ∈ config.stages ↔ stage.isEnabled config = true := by
    intro stage
    cases stage <;> simp [stages, Stage.order]
  refine ⟨hsettled.renamed (hmem.2 hrename), fun hscope => hsettled.folded (hmem.2 ?_), ?_⟩
  · simpa [Stage.isEnabled] using hscope
  · intro done rest hstages
    rw [hstages, List.foldlM_append] at hrun
    obtain ⟨reached, hreached, hlater⟩ := Fallible.bind_eq_ok.1 hrun
    have hmiddle := hstart.run hstages hreached
    exact ⟨reached, hreached, hlater, hmiddle.renamed, hmiddle.folded⟩

def renamingAndFolding : Config := { Config.default with renameTypes := true, foldScope := .all }

/-- Two models that differ in their names only, one of them reserved. -/
def queryAndTwin : DefinitionSet :=
  ⟨.ofList [("Query", ⟨"Query", .model, [⟨"id", .scalar .int, false, false⟩], none⟩),
    ("Twin", ⟨"Twin", .model, [⟨"id", .scalar .int, false, false⟩], none⟩)], ∅⟩

theorem Config.transform_settled_queryAndTwin :
    ∃ result, renamingAndFolding.transform queryAndTwin = .ok result ∧
      result.set.types.keys = ["QueryType"] ∧
      result.set.Avoids renamingAndFolding.rename.reserved ∧
      result.set.foldTable .all = .ok ∅ := by
  have hkeys : (renamingAndFolding.transform queryAndTwin).toOption.map (·.set.types.keys)
      = some ["QueryType"] := by decide
  cases h : renamingAndFolding.transform queryAndTwin with
  | error cause =>
    rw [h] at hkeys
    cases hkeys
  | ok result =>
    rw [h] at hkeys
    obtain ⟨havoids, hfolded, -⟩ := Config.transform_settled (by decide) h
    exact ⟨result, rfl, Option.some.inj hkeys, havoids, hfolded (by decide)⟩

end SchemaLayout
