import Mathlib.Data.List.Nodup
import SchemaLayout.Proofs.Names.Entries
import SchemaLayout.Proofs.Schema.Substitution

/-!
# Renaming definitions

`applyRenames` accepts a table when no two names get one name, no replacement is itself replaced,
and no definition gets the name of another (`Applicable`). Names of the set then stay apart
(`Applicable.apply_inj`), every definition is found under its new name (`get?_renamedTypes`), none
is lost (`size_applyRenames`), and a valid set stays valid (`valid_applyRenames`).
-/
namespace SchemaLayout

/-- A type definition with its references renamed, under a name that it is given. -/
def TypeDefinition.renamedAs (table : RenameTable) (name : String)
    (definition : TypeDefinition) : TypeDefinition :=
  { definition.renamed table with name := name }

def EnumDefinition.renamedAs (name : String) (definition : EnumDefinition) : EnumDefinition :=
  { definition with name := name }

namespace DefinitionSet

variable {set result : DefinitionSet} {table : RenameTable}

/-- What renaming asks of a table. -/
structure Applicable (set : DefinitionSet) (table : RenameTable) : Prop where
  unshared : ∀ {a b target}, table.get? a = some target → table.get? b = some target → a = b
  unchained : ∀ {a target}, table.get? a = some target → table.get? target = none
  free : ∀ {a target}, table.get? a = some target → set.containsName a = true →
    set.containsName target = false

theorem mem_toList_iff {a target : String} :
    (a, target) ∈ table.toList ↔ table.get? a = some target :=
  NameMap.get?_eq_some_iff.symm

theorem sharedTarget?_eq_none_iff : table.sharedTarget? = none ↔
    ∀ a b target, table.get? a = some target → table.get? b = some target → a = b := by
  have hpairs : table.toList.Nodup :=
    (table.entries.ordered.imp (S := (· ≠ ·)) fun hlt heq => String.lt_irrefl _ (heq ▸ hlt))
  unfold RenameTable.sharedTarget?
  rw [Option.map_eq_none_iff, firstRepeat?_eq_none_iff, List.nodup_map_iff_inj_on hpairs]
  constructor
  · intro h a b target ha hb
    exact congrArg Prod.fst (h _ (mem_toList_iff.2 ha) _ (mem_toList_iff.2 hb) rfl)
  · rintro h ⟨a, target⟩ ha ⟨b, _⟩ hb rfl
    rw [h a b target (mem_toList_iff.1 ha) (mem_toList_iff.1 hb)]

theorem chained?_eq_none_iff :
    table.chained? = none ↔ ∀ a target, table.get? a = some target → table.get? target = none := by
  unfold RenameTable.chained?
  rw [Option.map_eq_none_iff, List.find?_eq_none]
  constructor
  · intro h a target ha
    exact NameMap.get?_eq_none_iff.2 (h _ (mem_toList_iff.2 ha))
  · rintro h ⟨a, target⟩ ha
    exact NameMap.get?_eq_none_iff.1 (h a target (mem_toList_iff.1 ha))

theorem takenTarget?_eq_none_iff : set.takenTarget? table = none ↔ ∀ a target,
    table.get? a = some target → set.containsName a = true → set.containsName target = false := by
  unfold takenTarget?
  rw [Option.map_eq_none_iff, List.find?_eq_none]
  constructor
  · intro h a target ha hmem
    simpa [hmem] using h _ (mem_toList_iff.2 ha)
  · rintro h ⟨a, target⟩ ha hboth
    obtain ⟨hmem, htaken⟩ := Bool.and_eq_true_iff.1 hboth
    rw [h a target (mem_toList_iff.1 ha) hmem] at htaken
    cases htaken

/-! ## The renamed set -/

def renamedTypes (set : DefinitionSet) (table : RenameTable) : NameMap TypeDefinition :=
  .ofList (set.types.values.map fun d =>
    (table.apply d.name, { d.renamed table with name := table.apply d.name }))

def renamedEnums (set : DefinitionSet) (table : RenameTable) : NameMap EnumDefinition :=
  .ofList (set.enums.values.map fun d =>
    (table.apply d.name, { d with name := table.apply d.name }))

theorem applyRenames_eq_ok_iff : set.applyRenames table = .ok result ↔
    Applicable set table ∧ result = ⟨set.renamedTypes table, set.renamedEnums table⟩ := by
  have hfaults : (table.sharedTarget? <|> table.chained? <|> set.takenTarget? table) = none ↔
      Applicable set table := by
    simp only [Option.orElse_eq_orElse, Option.orElse_eq_or, Option.or_eq_none_iff,
      sharedTarget?_eq_none_iff, chained?_eq_none_iff, takenTarget?_eq_none_iff]
    exact ⟨fun h => ⟨h.1 _ _ _, h.2.1 _ _, h.2.2 _ _⟩,
      fun h => ⟨fun _ _ _ => h.unshared, fun _ _ => h.unchained, fun _ _ => h.free⟩⟩
  unfold applyRenames
  cases hfault : (table.sharedTarget? <|> table.chained? <|> set.takenTarget? table) with
  | some fault =>
    constructor
    · intro h; cases h
    · rintro ⟨h, -⟩
      rw [hfaults.2 h] at hfault
      cases hfault
  | none =>
    have hsets : (⟨set.renamedTypes table, set.renamedEnums table⟩ : DefinitionSet) =
        ⟨NameMap.ofList ((set.types.values.map fun d =>
            { d.mapFields (·.renamed table) with name := table.apply d.name }).map
              fun d => (d.name, d)),
          NameMap.ofList ((set.enums.values.map fun d =>
            { d with name := table.apply d.name }).map fun d => (d.name, d))⟩ := by
      simp only [renamedTypes, renamedEnums, List.map_map]
      rfl
    simp only [Except.ok.injEq, hfaults.1 hfault, true_and, hsets]
    exact eq_comm

theorem Applicable.apply_inj (h : Applicable set table) {a b : String}
    (ha : set.containsName a = true) (hb : set.containsName b = true)
    (hab : table.apply a = table.apply b) : a = b := by
  cases hga : table.get? a with
  | none =>
    rw [RenameTable.apply_of_get?_none hga] at hab
    cases hgb : table.get? b with
    | none => rwa [RenameTable.apply_of_get?_none hgb] at hab
    | some target =>
      rw [RenameTable.apply_of_get? hgb] at hab
      rw [hab, h.free hgb hb] at ha
      cases ha
  | some target =>
    rw [RenameTable.apply_of_get? hga] at hab
    cases hgb : table.get? b with
    | none =>
      rw [RenameTable.apply_of_get?_none hgb] at hab
      rw [← hab, h.free hga ha] at hb
      cases hb
    | some other =>
      rw [RenameTable.apply_of_get? hgb] at hab
      exact h.unshared hga (hab ▸ hgb)

theorem applicable_of_isEmpty (h : table.isEmpty = true) : Applicable set table := by
  have hnone : ∀ {name target}, table.get? name = some target → False := by
    intro name target hget
    rw [RenameTable.get?_eq_none_of_isEmpty h] at hget
    cases hget
  exact ⟨fun ha => (hnone ha).elim, fun ha => (hnone ha).elim, fun ha => (hnone ha).elim⟩

/-- In a map with names of the set, names stay apart. -/
theorem Applicable.inj_on (h : Applicable set table) {m : NameMap α}
    (hm : ∀ {name}, name ∈ m → set.containsName name = true) {a b : String} (ha : a ∈ m)
    (hb : b ∈ m) (hab : table.apply a = table.apply b) : a = b :=
  h.apply_inj (hm ha) (hm hb) hab

theorem containsName_of_type {name : String} (h : name ∈ set.types) :
    set.containsName name = true :=
  containsName_iff.2 (.inl h)

theorem containsName_of_enum {name : String} (h : name ∈ set.enums) :
    set.containsName name = true :=
  containsName_iff.2 (.inr h)

section Applied

variable (hset : set.Keyed)
include hset

theorem mem_renamedTypes {name : String} :
    name ∈ set.renamedTypes table ↔ ∃ old, old ∈ set.types ∧ table.apply old = name :=
  NameMap.mem_ofList_placed hset.types

theorem mem_renamedEnums {name : String} :
    name ∈ set.renamedEnums table ↔ ∃ old, old ∈ set.enums ∧ table.apply old = name :=
  NameMap.mem_ofList_placed hset.enums

variable (h : Applicable set table)
include h

theorem get?_renamedTypes {name : String} {definition : TypeDefinition} :
    (set.renamedTypes table).get? name = some definition ↔ ∃ old d, set.types.get? old = some d ∧
      table.apply old = name ∧ { d.renamed table with name := name } = definition :=
  NameMap.get?_ofList_placed (f := TypeDefinition.renamedAs table)
    hset.types (h.inj_on containsName_of_type)

theorem get?_renamedEnums {name : String} {definition : EnumDefinition} :
    (set.renamedEnums table).get? name = some definition ↔ ∃ old d, set.enums.get? old = some d ∧
      table.apply old = name ∧ { d with name := name } = definition :=
  NameMap.get?_ofList_placed (f := EnumDefinition.renamedAs)
    hset.enums (h.inj_on containsName_of_enum)

/-- No type and no enum is lost. -/
theorem size_applyRenames : (set.renamedTypes table).size = set.types.size ∧
    (set.renamedEnums table).size = set.enums.size :=
  ⟨NameMap.size_ofList_values
      (NameMap.place_name_inj hset.types (h.inj_on containsName_of_type)),
    NameMap.size_ofList_values
      (NameMap.place_name_inj hset.enums (h.inj_on containsName_of_enum))⟩

/-- A renaming that turns no name of the set and no definition leaves the set as it is. -/
theorem applyRenames_eq_self
    (hname : ∀ name, set.containsName name = true → table.apply name = name)
    (hdefinition : ∀ {name definition}, set.types.get? name = some definition →
      definition.renamed table = definition) : set.applyRenames table = .ok set := by
  have htypes : set.renamedTypes table = set.types := by
    refine NameMap.ofList_placed_self (g := TypeDefinition.renamedAs table)
      hset.types (fun hmem => hname _ (containsName_of_type hmem)) fun hget => ?_
    rw [TypeDefinition.renamedAs, hdefinition hget, ← hset.types hget]
  have henums : set.renamedEnums table = set.enums := by
    refine NameMap.ofList_placed_self (g := EnumDefinition.renamedAs)
      hset.enums (fun hmem => hname _ (containsName_of_enum hmem)) fun hget => ?_
    rw [EnumDefinition.renamedAs, ← hset.enums hget]
  exact applyRenames_eq_ok_iff.2 ⟨h, by rw [htypes, henums]⟩

end Applied

/-! ## What renaming gives -/

/-- The names of the renamed set are the renamed names. -/
theorem containsName_applyRenames (hset : set.Keyed) (h : set.applyRenames table = .ok result)
    {name : String} : result.containsName name = true ↔
      ∃ old, set.containsName old = true ∧ table.apply old = name := by
  obtain ⟨happ, rfl⟩ := applyRenames_eq_ok_iff.1 h
  simp only [containsName_iff, mem_renamedTypes hset, mem_renamedEnums hset, or_and_right,
    exists_or]

/-- A table that replaces a name of the set leaves no definition under that name. -/
theorem not_containsName_applyRenames {table : RenameTable} (hset : set.Keyed)
    (h : set.applyRenames table = .ok result) {name target : String}
    (hname : table.get? name = some target) : ¬ result.containsName name = true := by
  intro hmem
  have happ := (applyRenames_eq_ok_iff.1 h).1
  obtain ⟨old, -, hold⟩ := (containsName_applyRenames hset h).1 hmem
  cases hget : table.get? old with
  | none =>
    rw [RenameTable.apply_of_get?_none hget] at hold
    rw [hold, hname] at hget
    cases hget
  | some given =>
    rw [RenameTable.apply_of_get? hget] at hold
    rw [hold] at hget
    rw [happ.unchained hget] at hname
    cases hname

/-- Renaming keeps every definition under its name, and types and enums apart. -/
theorem Keyed.applyRenames (hset : set.Keyed) (h : set.applyRenames table = .ok result) :
    result.Keyed := by
  obtain ⟨happ, rfl⟩ := applyRenames_eq_ok_iff.1 h
  refine ⟨?_, ?_, ?_⟩
  · intro name d hget
    obtain ⟨old, d, -, -, rfl⟩ := (get?_renamedTypes hset happ).1 hget
    rfl
  · intro name d hget
    obtain ⟨old, d, -, -, rfl⟩ := (get?_renamedEnums hset happ).1 hget
    rfl
  · intro name htype henum
    obtain ⟨a, ha, rfl⟩ := (mem_renamedTypes hset).1 htype
    obtain ⟨b, hb, hab⟩ := (mem_renamedEnums hset).1 henum
    cases happ.apply_inj (containsName_iff.2 (.inr hb)) (containsName_iff.2 (.inl ha)) hab
    exact hset.disjoint ha hb

/-- Renaming gives a valid set for a valid one. -/
theorem valid_applyRenames (hset : set.Valid) (h : set.applyRenames table = .ok result) :
    result.Valid := by
  have hkeyed := hset.toKeyed
  have hresult := hkeyed.applyRenames h
  obtain ⟨happ, rfl⟩ := applyRenames_eq_ok_iff.1 h
  refine { hresult with wellFormed := ?_, resolved := ?_ }
  · intro name d hget
    obtain ⟨old, d, hold, -, rfl⟩ := (get?_renamedTypes hkeyed happ).1 hget
    have hwell := (hset.wellFormed hold).renamed table
    exact ⟨hwell.distinct, hwell.normal⟩
  · intro name d hget leaf hleaf
    obtain ⟨old, d, hold, -, rfl⟩ := (get?_renamedTypes hkeyed happ).1 hget
    obtain ⟨x, hx, rfl⟩ := (TypeDefinition.mem_leaves_renamed (hset.wellFormed hold)).1 hleaf
    refine resolves_renamedLeaf (hset.resolved hold x hx) (fun target htarget => ?_)
      fun target htarget => ?_
    · exact (mem_renamedTypes hkeyed).2 ⟨target, htarget, rfl⟩
    · exact (mem_renamedEnums hkeyed).2 ⟨target, htarget, rfl⟩

end DefinitionSet

end SchemaLayout
