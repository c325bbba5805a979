import SchemaLayout.Pass.Filters
import SchemaLayout.Proofs.Schema.Substitution

/-!
# Groups of filters

The groups of a set hold each of its filters once, under the base of its name
(`mem_filterGroups_iff`), in the order of the names. The table of variants turns a filter to its
base and leaves every other name as it is (`apply_variantTable`).
-/
namespace SchemaLayout

namespace DefinitionSet

variable {set : DefinitionSet}

def hasFilter (set : DefinitionSet) (name : String) : Bool :=
  (set.types.get? name).any (·.isFilter)

theorem hasFilter_iff {name : String} : set.hasFilter name = true ↔
    ∃ definition, set.types.get? name = some definition ∧ definition.isFilter = true := by
  unfold hasFilter
  rw [Option.any_eq_true]

theorem mem_types_of_hasFilter {name : String} (h : set.hasFilter name = true) :
    name ∈ set.types := by
  obtain ⟨definition, hget, -⟩ := hasFilter_iff.1 h
  exact NameMap.mem_of_get? hget

/-! ## What the groups hold -/

theorem get?_foldl_group (l : List TypeDefinition) (groups : NameMap (List String))
    (base : String) :
    (l.foldl (fun groups definition => groups.alter (filterBase definition.name) fun members? =>
      members?.getD [] ++ [definition.name]) groups).get? base =
    if (l.filter fun d => filterBase d.name == base) = [] then groups.get? base
    else some ((groups.get? base).getD []
      ++ (l.filter fun d => filterBase d.name == base).map (·.name)) := by
  induction l generalizing groups with
  | nil => rfl
  | cons definition l ih =>
    rw [List.foldl_cons, ih, NameMap.alter, NameMap.get?_insert, List.filter_cons]
    by_cases hbase : filterBase definition.name = base
    · subst hbase
      simp only [beq_self_eq_true, if_true, Option.getD_some, List.map_cons, List.append_assoc,
        List.singleton_append, reduceCtorEq, if_false]
      split
      · rename_i hnil
        rw [hnil, List.map_nil]
      · rfl
    · have hne : (filterBase definition.name == base) = false := by simpa using hbase
      rw [if_neg (Ne.symm hbase), hne]
      rfl

/-- The names of the filters with a base, in order. -/
def filtersOf (set : DefinitionSet) (base : String) : List String :=
  ((set.types.values.filter (·.isFilter)).filter fun d => filterBase d.name == base).map (·.name)

theorem get?_filterGroups (set : DefinitionSet) (base : String) :
    set.filterGroups.get? base =
      if set.filtersOf base = [] then none else some (set.filtersOf base) := by
  unfold filterGroups filtersOf
  rw [get?_foldl_group]
  simp only [List.map_eq_nil_iff, NameMap.get?_empty, Option.getD_none, List.nil_append]

theorem mem_filtersOf (hset : set.Keyed) {base name : String} :
    name ∈ set.filtersOf base ↔ set.hasFilter name = true ∧ filterBase name = base := by
  simp only [filtersOf, List.mem_map, List.mem_filter, NameMap.mem_values_iff, beq_iff_eq,
    hasFilter_iff]
  constructor
  · rintro ⟨definition, ⟨⟨⟨key, hget⟩, hfilter⟩, hbase⟩, rfl⟩
    rw [hset.types hget] at hbase ⊢
    exact ⟨⟨definition, hget, hfilter⟩, hbase⟩
  · rintro ⟨⟨definition, hget, hfilter⟩, hbase⟩
    have hname := hset.types hget
    exact ⟨definition, ⟨⟨⟨name, hget⟩, hfilter⟩, hname.symm ▸ hbase⟩, hname⟩

theorem eq_filtersOf_of_mem {base : String} {members : List String}
    (h : (base, members) ∈ set.filterGroups.entries) : members = set.filtersOf base := by
  rw [← NameMap.get?_eq_some_iff, get?_filterGroups] at h
  split at h
  · cases h
  · exact (Option.some.inj h).symm

/-- A group holds the names of the filters with its base. -/
theorem mem_filterGroups_iff (hset : set.Keyed) {base : String} {members : List String}
    (h : (base, members) ∈ set.filterGroups.entries) {name : String} :
    name ∈ members ↔ set.hasFilter name = true ∧ filterBase name = base := by
  rw [eq_filtersOf_of_mem h]
  exact mem_filtersOf hset

theorem exists_group (hset : set.Keyed) {name : String} (hname : set.hasFilter name = true) :
    ∃ members, (filterBase name, members) ∈ set.filterGroups.entries := by
  have hmem := (mem_filtersOf hset).2 ⟨hname, rfl⟩
  refine ⟨set.filtersOf (filterBase name), ?_⟩
  rw [← NameMap.get?_eq_some_iff, get?_filterGroups, if_neg (List.ne_nil_of_mem hmem)]

theorem exists_member (hset : set.Keyed) {base : String} {members : List String}
    (h : (base, members) ∈ set.filterGroups.entries) :
    ∃ name, set.hasFilter name = true ∧ filterBase name = base := by
  rw [← NameMap.get?_eq_some_iff, get?_filterGroups] at h
  split at h
  · cases h
  · rename_i hne
    obtain ⟨name, hname⟩ := List.exists_mem_of_ne_nil _ hne
    exact ⟨name, (mem_filtersOf hset).1 hname⟩

/-! ## The table of variants -/

/-- The table of variants holds the filters that are not their own base. -/
theorem get?_variantTable (hset : set.Keyed) (name : String) :
    (variantTable set.filterGroups).get? name =
      if set.hasFilter name = true ∧ filterBase name ≠ name then some (filterBase name)
      else none := by
  refine NameMap.get?_ofList_of_mem_iff (f := fun name =>
    if set.hasFilter name = true ∧ filterBase name ≠ name then some (filterBase name) else none)
    (fun name target => ?_) name
  simp only [List.mem_flatMap, List.mem_map, List.mem_filter, bne_iff_ne, Prod.mk.injEq,
    Option.ite_none_right_eq_some, Option.some.injEq]
  constructor
  · rintro ⟨⟨base, members⟩, hgroup, member, ⟨hmem, hne⟩, rfl, rfl⟩
    obtain ⟨hfilter, hbase⟩ := (mem_filterGroups_iff hset hgroup).1 hmem
    exact ⟨⟨hfilter, fun heq => hne (heq.symm.trans hbase)⟩, hbase⟩
  · rintro ⟨⟨hfilter, hne⟩, rfl⟩
    obtain ⟨members, hgroup⟩ := exists_group hset hfilter
    have hmem : name ∈ members := (mem_filterGroups_iff hset hgroup).2 ⟨hfilter, rfl⟩
    exact ⟨_, hgroup, name, ⟨hmem, Ne.symm hne⟩, rfl, rfl⟩

/-- Filters are turned to their bases, and no other name is replaced. -/
theorem apply_variantTable (hset : set.Keyed) (name : String) :
    (variantTable set.filterGroups).apply name =
      if set.hasFilter name then filterBase name else name := by
  have hget := get?_variantTable hset name
  split at hget
  · rename_i hvariant
    rw [RenameTable.apply_of_get? hget, if_pos hvariant.1]
  · rename_i hvariant
    rw [RenameTable.apply_of_get?_none hget]
    split
    · rename_i hfilter
      exact (not_not.1 fun hne => hvariant ⟨hfilter, hne⟩).symm
    · rfl

/-! ## Free bases -/

theorem baseCollision?_eq_none_iff {base : String} : set.baseCollision? base = none ↔
    base ∉ set.enums ∧ (base ∈ set.types → set.hasFilter base = true) := by
  have henum : base ∈ set.enums ↔ set.enums.contains base = true := Iff.rfl
  unfold baseCollision?
  rw [henum, NameMap.mem_iff_get?, hasFilter]
  split
  · simp_all
  · cases hget : set.types.get? base with
    | none => simp_all
    | some definition => cases hfilter : definition.isFilter <;> simp_all

end DefinitionSet

end SchemaLayout
