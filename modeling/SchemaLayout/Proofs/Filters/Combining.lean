import SchemaLayout.Proofs.Filters.Joining
import SchemaLayout.Proofs.Filters.Validity

/-!
# What becomes of groups of filters

Where bases are no variants, a name belongs to one group at most, so groups do not touch each other:
what a group merges are the filters of the set that it was made from. After some groups the types
are those of `MergedUpTo`, and each group more either keeps this or fails for fields that do not
agree (`mergeGroup_outcome`, `mergeGroups_outcome`).
-/
namespace SchemaLayout

namespace DefinitionSet

/-- Some filter with the base is not the base itself. -/
def HasVariant (set : DefinitionSet) (base : String) : Prop :=
  ∃ name, set.hasFilter name = true ∧ filterBase name = base ∧ name ≠ base

/-- The definition of a base, if there is one, and the other filters with that base in the order of
their names. -/
def sharing (set : DefinitionSet) (base : String) : List TypeDefinition :=
  (set.types.get? base).toList ++ set.types.values.filter fun definition =>
    definition.isFilter && filterBase definition.name == base && definition.name != base

/-- The filter that stands for all with a base: their fields are joined by name, with every variant
in a type replaced by its base. -/
def combinedFilter (set : DefinitionSet) (base : String) : TypeDefinition where
  name := base
  kind := .input
  fields := Filters.joinByName
    (Filters.renamedFields (variantTable set.filterGroups) (set.sharing base))
  sourceEntity? := (set.sharing base).findSome? (·.sourceEntity?)

/-- Some variant has a base whose name an enum or a definition that is no filter has. -/
def BaseTaken (set : DefinitionSet) : Prop :=
  ∃ name, set.hasFilter name = true ∧ filterBase name ≠ name ∧
    (filterBase name ∈ set.enums ∨
      filterBase name ∈ set.types ∧ set.hasFilter (filterBase name) = false)

/-- Two filters with the base have fields of one name that differ as lists or in type, with every
variant replaced by its base. -/
def VariantsDisagree (set : DefinitionSet) (base : String) : Prop :=
  ∃ a b d e, a ≠ b ∧ filterBase a = base ∧ filterBase b = base ∧
    set.types.get? a = some d ∧ set.types.get? b = some e ∧
      d.isFilter = true ∧ e.isFilter = true ∧ ∃ f ∈ d.fields, ∃ g ∈ e.fields, f.name = g.name ∧
        ¬(f.type.renamed (variantTable set.filterGroups)
          = g.type.renamed (variantTable set.filterGroups) ∧ f.isList = g.isList)

end DefinitionSet

namespace Filters

open DefinitionSet

variable {set : DefinitionSet}

/-! ## What groups merge -/

section Sharing

variable (hset : set.Keyed)
include hset

theorem mem_sharing {base : String} {definition : TypeDefinition} :
    definition ∈ set.sharing base ↔ ∃ name, set.types.get? name = some definition ∧
      (name = base ∨ definition.isFilter = true ∧ filterBase name = base) := by
  simp only [sharing, List.mem_append, Option.mem_toList, List.mem_filter, NameMap.mem_values_iff,
    Bool.and_eq_true, beq_iff_eq, bne_iff_ne]
  constructor
  · rintro (hbase | ⟨⟨name, hget⟩, ⟨hfilter, hname⟩, -⟩)
    · exact ⟨base, hbase, Or.inl rfl⟩
    · exact ⟨name, hget, Or.inr ⟨hfilter, hset.types hget ▸ hname⟩⟩
  · rintro ⟨name, hget, hname⟩
    by_cases heq : name = base
    · exact Or.inl (heq ▸ hget)
    · obtain ⟨hfilter, hbase⟩ := hname.resolve_left heq
      refine Or.inr ⟨⟨name, hget⟩, ⟨hfilter, ?_⟩, ?_⟩
      · rw [hset.types hget, hbase]
      · rw [hset.types hget]
        exact heq

theorem groupVariants_eq_sharing (base : String) :
    groupVariants set.types base (set.filtersOf base) = set.sharing base := by
  have hothers : ((set.filtersOf base).filter (· != base)).filterMap set.types.get?
      = set.types.values.filter fun definition => definition.isFilter
        && filterBase definition.name == base && definition.name != base := by
    have hget : ∀ definition ∈ set.types.values,
        set.types.get? definition.name = some definition := by
      intro definition hmem
      obtain ⟨name, hget⟩ := NameMap.mem_values_iff.1 hmem
      rwa [hset.types hget]
    rw [filtersOf, List.filter_map, List.filterMap_map, List.filter_filter, List.filter_filter]
    refine (List.filterMap_congr (g := some) fun definition hmem => ?_).trans ?_
    · exact hget definition (List.mem_filter.1 hmem).1
    · rw [List.filterMap_some]
      refine List.filter_congr fun definition _ => ?_
      rw [Function.comp_apply, Bool.and_comm, Bool.and_comm (_ != base), Bool.and_assoc]
  unfold groupVariants sharing
  rw [← hothers, List.filterMap_cons]
  cases set.types.get? base <;> rfl

end Sharing

/-! ## Groups that do not touch -/

/-- What the types are after some groups. -/
structure MergedUpTo (set : DefinitionSet) (done : List (String × List String))
    (types : NameMap TypeDefinition) : Prop where
  merged : ∀ group ∈ done, set.HasVariant group.1 →
    types.get? group.1 = some (set.combinedFilter group.1)
  removed : ∀ group ∈ done, ∀ name ∈ group.2, name ≠ group.1 → types.get? name = none
  kept : ∀ {name}, (∀ group ∈ done, set.HasVariant group.1 → name ≠ group.1 ∧ name ∉ group.2) →
    types.get? name = set.types.get? name

theorem mergedUpTo_nil (set : DefinitionSet) : MergedUpTo set [] set.types where
  merged group h := by cases h
  removed group h := by cases h
  kept _ := rfl

section Stable

variable (hset : set.Keyed) (hstable : ∀ name, set.hasFilter name = true →
  filterBase (filterBase name) = filterBase name)
include hset

theorem hasVariant_iff {base : String} {members : List String}
    (hgroup : (base, members) ∈ set.filterGroups.entries) :
    set.HasVariant base ↔ ¬members.all (· == base) = true := by
  simp only [HasVariant, List.all_eq_true, beq_iff_eq, not_forall,
    mem_filterGroups_iff hset hgroup, exists_prop, and_assoc]

include hstable

theorem apply_of_mem_group {base name : String} {members : List String}
    (hgroup : (base, members) ∈ set.filterGroups.entries) (hname : name = base ∨ name ∈ members) :
    (variantTable set.filterGroups).apply name = base := by
  have hmember : ∀ {name}, name ∈ members → (variantTable set.filterGroups).apply name = base := by
    intro name hmem
    obtain ⟨hfilter, hbase⟩ := (mem_filterGroups_iff hset hgroup).1 hmem
    rw [apply_variantTable hset, if_pos hfilter, hbase]
  rcases hname with rfl | hmem
  · obtain ⟨member, hmember'⟩ := exists_member hset hgroup
    have hmem := hmember ((mem_filterGroups_iff hset hgroup).2 hmember')
    rw [← hmem, apply_variantTable_twice hset hstable]
  · exact hmember hmem

variable {done rest : List (String × List String)} {base : String} {members : List String}
  (hsplit : set.filterGroups.entries = done ++ (base, members) :: rest)
include hsplit

theorem not_mem_done {name : String} (hname : name = base ∨ name ∈ members)
    {group : String × List String} (hgroup : group ∈ done) : name ≠ group.1 ∧ name ∉ group.2 := by
  have hbefore : (group.1, group.2) ∈ set.filterGroups.entries :=
    hsplit ▸ List.mem_append_left _ hgroup
  rw [← not_or]
  intro hother
  have hbase := (apply_of_mem_group hset hstable hbefore hother).symm.trans
    (apply_of_mem_group hset hstable (group_mem_entries hsplit) hname)
  exact String.lt_irrefl _ (hbase ▸ (base_order hsplit).1 group hgroup)

variable {types : NameMap TypeDefinition} (h : MergedUpTo set done types)
include h

theorem MergedUpTo.groupVariants_eq : groupVariants types base members = set.sharing base := by
  have hget : ∀ name, name = base ∨ name ∈ members → types.get? name = set.types.get? name :=
    fun name hname => h.kept fun group hgroup _ => not_mem_done hset hstable hsplit hname hgroup
  have hmembers : members = set.filtersOf base := eq_filtersOf_of_mem (group_mem_entries hsplit)
  rw [← groupVariants_eq_sharing hset base, ← hmembers]
  refine List.filterMap_congr fun name hname => hget name ?_
  exact (List.mem_cons.1 hname).imp_right fun hmem => (List.mem_filter.1 hmem).1

omit hstable in
theorem MergedUpTo.of_all (hall : members.all (· == base) = true) :
    MergedUpTo set (done ++ [(base, members)]) types where
  merged group hgroup hvariant := by
    rcases List.mem_append.1 hgroup with hdone | hnow
    · exact h.merged group hdone hvariant
    · obtain rfl := List.mem_singleton.1 hnow
      exact absurd hall ((hasVariant_iff hset (group_mem_entries hsplit)).1 hvariant)
  removed group hgroup name hname hne := by
    rcases List.mem_append.1 hgroup with hdone | hnow
    · exact h.removed group hdone name hname hne
    · obtain rfl := List.mem_singleton.1 hnow
      exact absurd (beq_iff_eq.1 (List.all_eq_true.1 hall name hname)) hne
  kept hout := h.kept fun group hgroup => hout group (List.mem_append_left _ hgroup)

/-- One group more, with its filter in its place. -/
theorem MergedUpTo.concat {next : NameMap TypeDefinition}
    (hnext : ∀ name, next.get? name = if name = base then some (set.combinedFilter base)
      else if name ∈ members then none else types.get? name)
    (hvariant : set.HasVariant base) : MergedUpTo set (done ++ [(base, members)]) next := by
  have hbefore : ∀ group ∈ done, ∀ name, name = group.1 ∨ name ∈ group.2 →
      next.get? name = types.get? name := by
    intro group hgroup name hname
    have hout : ¬(name = base ∨ name ∈ members) := fun hnow =>
      not_or.2 (not_mem_done hset hstable hsplit hnow hgroup) hname
    rw [hnext, if_neg (not_or.1 hout).1, if_neg (not_or.1 hout).2]
  refine ⟨fun group hgroup hbase => ?_, fun group hgroup name hname hne => ?_, fun hout => ?_⟩
  · rcases List.mem_append.1 hgroup with hdone | hnow
    · rw [hbefore group hdone group.1 (Or.inl rfl), h.merged group hdone hbase]
    · obtain rfl := List.mem_singleton.1 hnow
      rw [hnext, if_pos rfl]
  · rcases List.mem_append.1 hgroup with hdone | hnow
    · rw [hbefore group hdone name (Or.inr hname), h.removed group hdone name hname hne]
    · obtain rfl := List.mem_singleton.1 hnow
      rw [hnext, if_neg hne, if_pos hname]
  · obtain ⟨hbase, hmem⟩ := hout (base, members) (by simp) hvariant
    rw [hnext, if_neg hbase, if_neg hmem]
    exact h.kept fun group hgroup => hout group (List.mem_append_left _ hgroup)

end Stable

/-! ## After all groups -/

section AllGroups

variable (hset : set.Keyed) {types : NameMap TypeDefinition}
  (h : MergedUpTo set set.filterGroups.entries types)
include hset h

theorem MergedUpTo.get?_base {base : String} (hvariant : set.HasVariant base) :
    types.get? base = some (set.combinedFilter base) := by
  have ⟨name, hfilter, hbase, _⟩ := hvariant
  obtain ⟨members, hgroup⟩ := exists_group hset hfilter
  rw [hbase] at hgroup
  exact h.merged (base, members) hgroup hvariant

theorem MergedUpTo.get?_variant {name : String} (hfilter : set.hasFilter name = true)
    (hne : filterBase name ≠ name) : types.get? name = none := by
  obtain ⟨members, hgroup⟩ := exists_group hset hfilter
  have hmem : name ∈ members := (mem_filterGroups_iff hset hgroup).2 ⟨hfilter, rfl⟩
  exact h.removed _ hgroup name hmem hne.symm

theorem MergedUpTo.get?_other {name : String}
    (hname : set.hasFilter name = true → filterBase name = name) (hbase : ¬set.HasVariant name) :
    types.get? name = set.types.get? name := by
  refine h.kept fun group hgroup hvariant => ⟨?_, fun hmem => ?_⟩
  · rintro rfl
    exact hbase hvariant
  · obtain ⟨hfilter, hgroupBase⟩ := (mem_filterGroups_iff hset hgroup).1 hmem
    rw [← hgroupBase, hname hfilter] at hvariant
    exact hbase hvariant

theorem MergedUpTo.filterBase_eq (hstable : ∀ name, set.hasFilter name = true →
    filterBase (filterBase name) = filterBase name) {name : String} {definition : TypeDefinition}
    (hget : types.get? name = some definition) (hisFilter : definition.isFilter = true) :
    filterBase name = name := by
  by_cases hbase : set.HasVariant name
  · obtain ⟨member, hmember, rfl, -⟩ := hbase
    exact hstable member hmember
  · by_contra hne
    by_cases hfilter : set.hasFilter name = true
    · rw [h.get?_variant hset hfilter hne] at hget
      cases hget
    · rw [h.get?_other hset (fun hother => absurd hother hfilter) hbase] at hget
      exact hfilter (hasFilter_iff.2 ⟨definition, hget, hisFilter⟩)

theorem MergedUpTo.filterBase_mem {name : String} (hfilter : set.hasFilter name = true) :
    filterBase name ∈ types := by
  by_cases hvariant : set.HasVariant (filterBase name)
  · exact NameMap.mem_of_get? (h.get?_base hset hvariant)
  · have hself : filterBase name = name :=
      not_not.1 fun hne => hvariant ⟨name, hfilter, rfl, Ne.symm hne⟩
    obtain ⟨definition, hget, -⟩ := hasFilter_iff.1 hfilter
    rw [hself] at hvariant ⊢
    rw [← h.get?_other hset (fun _ => hself) hvariant] at hget
    exact NameMap.mem_of_get? hget

end AllGroups

/-! ## Fields that agree -/

section Agreement

variable (hset : set.Valid) (hstable : ∀ name, set.hasFilter name = true →
  filterBase (filterBase name) = filterBase name) (hfree : ¬set.BaseTaken)
include hset hstable hfree

/-- Where bases are free, what a group merges are filters with its base. -/
theorem mem_sharing_iff {base : String} {members : List String}
    (hgroup : (base, members) ∈ set.filterGroups.entries) {definition : TypeDefinition} :
    definition ∈ set.sharing base ↔ ∃ name, filterBase name = base ∧
      set.types.get? name = some definition ∧ definition.isFilter = true := by
  rw [mem_sharing hset.toKeyed]
  constructor
  · rintro ⟨name, hget, rfl | ⟨hfilter, hbase⟩⟩
    · obtain ⟨member, hmember, rfl⟩ := exists_member hset.toKeyed hgroup
      refine ⟨_, hstable member hmember, hget, ?_⟩
      by_contra hno
      have hother : ¬set.hasFilter (filterBase member) = true := by
        simpa [hasFilter, hget] using hno
      refine hfree ⟨member, hmember, fun heq => hother (heq.symm ▸ hmember), Or.inr ⟨?_, ?_⟩⟩
      · exact NameMap.mem_of_get? hget
      · exact Bool.eq_false_iff.2 hother
    · exact ⟨name, hbase, hget, hfilter⟩
  · rintro ⟨name, hbase, hget, hfilter⟩
    exact ⟨name, hget, Or.inr ⟨hfilter, hbase⟩⟩

/-- The fields that a group merges agree, unless two of its filters do not. -/
theorem fieldsAgree_sharing_iff {base : String} {members : List String}
    (hgroup : (base, members) ∈ set.filterGroups.entries) :
    FieldsAgree (renamedFields (variantTable set.filterGroups) (set.sharing base)) ↔
      ¬set.VariantsDisagree base := by
  have hmem : ∀ {field}, field ∈ renamedFields (variantTable set.filterGroups) (set.sharing base) ↔
      ∃ name definition, filterBase name = base ∧ set.types.get? name = some definition ∧
        definition.isFilter = true ∧ ∃ old ∈ definition.fields,
          old.renamed (variantTable set.filterGroups) = field := by
    intro field
    simp only [renamedFields, List.mem_flatMap, List.mem_map,
      mem_sharing_iff hset hstable hfree hgroup]
    constructor
    · rintro ⟨definition, ⟨name, hbase, hget, hfilter⟩, hold⟩
      exact ⟨name, definition, hbase, hget, hfilter, hold⟩
    · rintro ⟨name, definition, hbase, hget, hfilter, hold⟩
      exact ⟨definition, ⟨name, hbase, hget, hfilter⟩, hold⟩
  constructor
  · rintro hagree ⟨a, b, d, e, -, ha, hb, hd, he, hdfilter, hefilter, f, hf, g, hg, hname, hdiffer⟩
    exact hdiffer (hagree _ (hmem.2 ⟨a, d, ha, hd, hdfilter, f, hf, rfl⟩)
      _ (hmem.2 ⟨b, e, hb, he, hefilter, g, hg, rfl⟩) hname)
  · intro hno x hx y hy hname
    obtain ⟨a, d, ha, hd, hdfilter, f, hf, rfl⟩ := hmem.1 hx
    obtain ⟨b, e, hb, he, hefilter, g, hg, rfl⟩ := hmem.1 hy
    by_contra hdiffer
    by_cases hab : a = b
    · -- one filter has no two fields of one name
      subst hab
      cases hd.symm.trans he
      obtain rfl := List.inj_on_of_nodup_map (hset.wellFormed hd).distinct hf hg hname
      exact hdiffer ⟨rfl, rfl⟩
    · exact hno ⟨a, b, d, e, hab, ha, hb, hd, he, hdfilter, hefilter, f, hf, g, hg, hname, hdiffer⟩

/-- One group more gives its filter, or fails where two of its filters do not agree. -/
theorem mergeGroup_outcome {done rest : List (String × List String)}
    {group : String × List String} (hsplit : set.filterGroups.entries = done ++ group :: rest)
    {types : NameMap TypeDefinition} (h : MergedUpTo set done types) :
    Outcome (¬set.VariantsDisagree group.1) (MergedUpTo set (done ++ [group]))
      (mergeGroup (variantTable set.filterGroups) types group) := by
  obtain ⟨base, members⟩ := group
  have hgroup := group_mem_entries hsplit
  by_cases hall : members.all (· == base) = true
  · have hok : mergeGroup (variantTable set.filterGroups) types (base, members) = .ok types :=
      mergeGroup_of_all hall
    refine ⟨fun _ => ⟨types, hok, h.of_all hset.toKeyed hsplit hall⟩, fun hnot => absurd ?_ hnot⟩
    rintro ⟨a, b, d, e, hne, ha, hb, hd, he, hdfilter, hefilter, -⟩
    have hbase : ∀ {name definition}, filterBase name = base →
        set.types.get? name = some definition → definition.isFilter = true → name = base := by
      intro name definition hbase hget hfilter
      have hmem : name ∈ members := (mem_filterGroups_iff hset.toKeyed hgroup).2
        ⟨hasFilter_iff.2 ⟨definition, hget, hfilter⟩, hbase⟩
      exact beq_iff_eq.1 (List.all_eq_true.1 hall name hmem)
    exact hne ((hbase ha hd hdfilter).trans (hbase hb he hefilter).symm)
  · have hvariant := (hasVariant_iff hset.toKeyed hgroup).2 hall
    have hmerged := mergeVariants_outcome (variantTable set.filterGroups) base (set.sharing base)
    have hmerge : mergeGroup (variantTable set.filterGroups) types (base, members)
        = (mergeVariants (variantTable set.filterGroups) base (set.sharing base)).map
          fun merged => ((members.foldl NameMap.erase types).erase base).insert base merged := by
      rw [← h.groupVariants_eq hset.toKeyed hstable hsplit]
      exact if_neg hall
    rw [hmerge]
    refine (hmerged.congr (fieldsAgree_sharing_iff hset hstable hfree hgroup).symm).map ?_
    rintro merged rfl
    exact h.concat hset.toKeyed hstable hsplit
      (get?_insert_erased types base members (set.combinedFilter base)) hvariant

/-- All groups give their filters, or the merge fails where two filters of a group do not agree. -/
theorem mergeGroups_outcome : Outcome (∀ base, ¬set.VariantsDisagree base)
    (MergedUpTo set set.filterGroups.entries)
    (set.filterGroups.entries.foldlM (mergeGroup (variantTable set.filterGroups)) set.types) := by
  have hrun : Outcome (∀ group ∈ set.filterGroups.entries, ¬set.VariantsDisagree group.1)
      (MergedUpTo set set.filterGroups.entries)
      (set.filterGroups.entries.foldlM (mergeGroup (variantTable set.filterGroups)) set.types) := by
    refine Outcome.foldlM (fun done => ∀ group ∈ done, ¬set.VariantsDisagree group.1)
      (MergedUpTo set) ?_ ?_ ?_ (mergedUpTo_nil set)
    · intro done rest h group hgroup
      exact h group (List.mem_append_left _ hgroup)
    · intro done group rest types hsplit hdone h
      refine (mergeGroup_outcome hset hstable hfree hsplit h).congr ?_
      simp only [List.mem_append, List.mem_singleton, or_imp, forall_and, forall_eq]
      exact and_iff_right hdone
    · intro group hgroup
      cases hgroup
  refine hrun.congr ⟨fun h group _ => h group.1, fun h base hdisagree => ?_⟩
  obtain ⟨a, b, d, e, hne, rfl, hb, hd, he, hdfilter, hrest⟩ := hdisagree
  obtain ⟨members, hgroup⟩ := exists_group hset.toKeyed (hasFilter_iff.2 ⟨d, hd, hdfilter⟩)
  exact h _ hgroup ⟨a, b, d, e, hne, rfl, hb, hd, he, hdfilter, hrest⟩

end Agreement

end Filters

end SchemaLayout
