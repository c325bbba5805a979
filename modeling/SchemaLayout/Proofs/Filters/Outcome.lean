import SchemaLayout.Proofs.Filters.Combining

/-!
# What combining filters gives

Where bases are no variants, combining filters fails for a base that is taken, else for filters of
one base that disagree, and else gives the set that `Combined` describes. A merge renames fields and
the set is renamed after it, which changes nothing more as names are turned to their bases once and
for all (`renamed_renamed`).

**Result.** `combineFilters_outcome`: which of the three it is for every valid set.
-/
namespace SchemaLayout

namespace DefinitionSet

open Filters

variable {set result : DefinitionSet}

/-! ## Variants and taken bases -/

theorem isEmpty_variantTable_iff (hset : set.Keyed) :
    (variantTable set.filterGroups).isEmpty = true ↔
      ∀ name, set.hasFilter name = true → filterBase name = name := by
  have hnone : ∀ name, name ∉ (variantTable set.filterGroups).entries ↔
      (set.hasFilter name = true → filterBase name = name) := by
    intro name
    rw [← NameMap.get?_eq_none_iff]
    show (variantTable set.filterGroups).get? name = none ↔ _
    rw [get?_variantTable hset]
    split
    · rename_i hvariant
      exact iff_of_false (Option.some_ne_none _) fun h => hvariant.2 (h hvariant.1)
    · rename_i hvariant
      exact iff_of_true rfl fun hfilter => not_not.1 fun hne => hvariant ⟨hfilter, hne⟩
  exact NameMap.isEmpty_iff_forall.trans (forall_congr' hnone)

theorem exists_nameCollision_of_baseCollision? {base : String} {cause : SchemaError}
    (h : set.baseCollision? base = some cause) :
    ∃ name first second, cause = .nameCollision name first second := by
  unfold baseCollision? at h
  split at h
  · cases h
    exact ⟨_, _, _, rfl⟩
  · split at h
    · split at h
      · cases h
      · cases h
        exact ⟨_, _, _, rfl⟩
    · cases h

/-- Every base is free unless that of a variant is taken. -/
theorem forall_baseCollision?_eq_none_iff (hset : set.Keyed) :
    (∀ base ∈ set.filterGroups.keys, set.baseCollision? base = none) ↔ ¬set.BaseTaken := by
  simp only [baseCollision?_eq_none_iff]
  constructor
  · rintro hfree ⟨name, hfilter, -, htaken⟩
    obtain ⟨members, hgroup⟩ := exists_group hset hfilter
    obtain ⟨henum, htype⟩ := hfree (filterBase name) (List.mem_map.2 ⟨_, hgroup, rfl⟩)
    rcases htaken with hmem | ⟨hmem, hother⟩
    · exact henum hmem
    · exact Bool.eq_false_iff.1 hother (htype hmem)
  · intro hfree base hbase
    obtain ⟨⟨_, members⟩, hgroup, rfl⟩ := List.mem_map.1 hbase
    obtain ⟨member, hmember, rfl⟩ := exists_member hset hgroup
    by_cases heq : filterBase member = member
    · rw [heq]
      exact ⟨hset.disjoint (mem_types_of_hasFilter hmember), fun _ => hmember⟩
    · refine ⟨fun henum => hfree ⟨member, hmember, heq, Or.inl henum⟩, fun htype => ?_⟩
      by_contra hother
      exact hfree ⟨member, hmember, heq, Or.inr ⟨htype, Bool.eq_false_iff.2 hother⟩⟩

/-! ## The combined set -/

/-- What a set becomes when its filters are combined: each base with a variant has the combined
filter, variants are gone, and everything else stays as it is but for variants in types. -/
structure Combined (set result : DefinitionSet) : Prop where
  valid : result.validate = .ok ()
  enums : result.enums = set.enums
  merged : ∀ {base}, set.HasVariant base →
    result.types.get? base = some (set.combinedFilter base)
  removed : ∀ {name}, set.hasFilter name = true → filterBase name ≠ name →
    result.types.get? name = none
  kept : ∀ {name}, (set.hasFilter name = true → filterBase name = name) →
    ¬set.HasVariant name →
      result.types.get? name = (set.types.get? name).map (·.renamed (variantTable set.filterGroups))
  bases : ∀ {name}, set.hasFilter name = true → filterBase name ∈ result.types
  noVariant : ∀ {name}, result.hasFilter name = true → filterBase name = name
  settled : result.combineFilters = .ok result

/-- With a variant, bases are looked at first, and then the groups are merged. -/
theorem combineFilters_of_variant (h : (variantTable set.filterGroups).isEmpty = false) :
    set.combineFilters = match set.filterGroups.keys.findSome? set.baseCollision? with
      | some collision => .error collision
      | none => (set.filterGroups.entries.foldlM (mergeGroup (variantTable set.filterGroups))
          set.types).map fun types =>
            rewriteReferences ⟨types, set.enums⟩ (variantTable set.filterGroups) :=
  if_neg (by rw [h]; exact Bool.false_ne_true)

theorem combineFilters_of_noVariant (hset : set.Keyed)
    (h : ∀ {name}, set.hasFilter name = true → filterBase name = name) :
    set.combineFilters = .ok set :=
  if_pos ((isEmpty_variantTable_iff hset).2 fun _ => h)

section Stable

variable (hset : set.Valid) (hstable : ∀ name, set.hasFilter name = true →
  filterBase (filterBase name) = filterBase name)
include hset

theorem combined_of_isEmpty (hempty : (variantTable set.filterGroups).isEmpty = true) :
    Combined set set := by
  have hnone := (isEmpty_variantTable_iff hset.toKeyed).1 hempty
  refine ⟨validate_eq_ok_iff.2 hset, rfl, ?_, ?_, ?_, ?_, fun hname => hnone _ hname, ?_⟩
  · rintro _ ⟨name, hfilter, rfl, hne⟩
    exact absurd (hnone name hfilter).symm hne
  · intro name hfilter hne
    exact absurd (hnone name hfilter) hne
  · intro name _ _
    cases set.types.get? name with
    | none => rfl
    | some definition => rw [Option.map_some, TypeDefinition.renamed_of_isEmpty hempty]
  · intro name hfilter
    rw [hnone name hfilter]
    exact mem_types_of_hasFilter hfilter
  · exact combineFilters_of_noVariant hset.toKeyed fun hname => hnone _ hname

include hstable

theorem renamed_combinedFilter (base : String) :
    (set.combinedFilter base).renamed (variantTable set.filterGroups)
      = set.combinedFilter base := by
  have hfixed : ∀ field ∈ (set.combinedFilter base).fields,
      field.renamed (variantTable set.filterGroups) = field := by
    intro field hfield
    obtain ⟨first, hfirst, rfl⟩ := List.mem_map.1 hfield
    obtain ⟨definition, hmem, hrenamed⟩ := List.mem_flatMap.1 (mem_of_mem_firstByName hfirst)
    obtain ⟨old, hold, rfl⟩ := List.mem_map.1 hrenamed
    obtain ⟨name, hget, -⟩ := (mem_sharing hset.toKeyed).1 hmem
    have htype := TypeRef.renamed_renamed (apply_variantTable_twice hset.toKeyed hstable)
      ((hset.wellFormed hget).normal old hold)
    simp only [Field.renamed, nullableOver, htype]
  have hfields := List.map_congr_left hfixed
  rw [List.map_id'] at hfields
  show ({ set.combinedFilter base with fields := _ } : TypeDefinition) = _
  rw [hfields]

theorem combined_of_mergedUpTo {types : NameMap TypeDefinition}
    (h : MergedUpTo set set.filterGroups.entries types) (hresult : set.combineFilters
      = .ok (rewriteReferences ⟨types, set.enums⟩ (variantTable set.filterGroups))) :
    Combined set (rewriteReferences ⟨types, set.enums⟩ (variantTable set.filterGroups)) := by
  have hvalid := valid_combineFilters_of_stable hset hresult hstable
  have hget := get?_rewriteReferences ⟨types, set.enums⟩ (variantTable set.filterGroups)
  have hnoVariant : ∀ {name}, (rewriteReferences ⟨types, set.enums⟩
      (variantTable set.filterGroups)).hasFilter name = true → filterBase name = name := by
    intro name hfilter
    obtain ⟨definition, hdefinition, hisFilter⟩ := hasFilter_iff.1 hfilter
    rw [hget] at hdefinition
    obtain ⟨old, hold, rfl⟩ := Option.map_eq_some_iff.1 hdefinition
    exact h.filterBase_eq hset.toKeyed hstable hold hisFilter
  exact {
    valid := validate_eq_ok_iff.2 hvalid
    enums := enums_rewriteReferences _ _
    merged := fun {base} hvariant => by
      rw [hget, h.get?_base hset.toKeyed hvariant, Option.map_some,
        renamed_combinedFilter hset hstable]
    removed := fun hfilter hne => by
      rw [hget, h.get?_variant hset.toKeyed hfilter hne, Option.map_none]
    kept := fun hname hbase => by rw [hget, h.get?_other hset.toKeyed hname hbase]
    bases := fun hfilter => mem_rewriteReferences.2 (h.filterBase_mem hset.toKeyed hfilter)
    noVariant := hnoVariant
    settled := combineFilters_of_noVariant hvalid.toKeyed hnoVariant }

end Stable

/-- Where bases are free, filters of one base that disagree are all that combining fails for. -/
theorem combineFilters_of_free (hset : set.Valid) (hstable : ∀ name, set.hasFilter name = true →
    filterBase (filterBase name) = filterBase name) (hfree : ¬set.BaseTaken) :
    Outcome (∀ base, ¬set.VariantsDisagree base) (Combined set) set.combineFilters := by
  cases hempty : (variantTable set.filterGroups).isEmpty with
  | true =>
    have hown := (isEmpty_variantTable_iff hset.toKeyed).1 hempty
    refine ⟨fun _ => ⟨set, if_pos hempty, combined_of_isEmpty hset hempty⟩,
      fun hnot => absurd ?_ hnot⟩
    rintro base ⟨a, b, d, e, hne, ha, hb, hd, he, hdfilter, hefilter, -⟩
    rw [hown a (hasFilter_iff.2 ⟨d, hd, hdfilter⟩)] at ha
    rw [hown b (hasFilter_iff.2 ⟨e, he, hefilter⟩)] at hb
    exact hne (ha.trans hb.symm)
  | false =>
    have hnone := List.findSome?_eq_none_iff.2
      ((forall_baseCollision?_eq_none_iff hset.toKeyed).2 hfree)
    have hcombine := combineFilters_of_variant hempty
    rw [hnone] at hcombine
    have hgroups := mergeGroups_outcome hset hstable hfree
    constructor
    · intro hagree
      obtain ⟨types, htypes, hmerged⟩ := hgroups.ok hagree
      rw [htypes] at hcombine
      exact ⟨_, hcombine, combined_of_mergedUpTo hset hstable hmerged hcombine⟩
    · intro hdisagree
      obtain ⟨left, right, known, field, herror⟩ := hgroups.incompatible hdisagree
      exact ⟨left, right, known, field, by rw [hcombine, herror]; rfl⟩

theorem combineFilters_of_taken (hset : set.Keyed) (htaken : set.BaseTaken) :
    ∃ name first second, set.combineFilters = .error (.nameCollision name first second) := by
  have hempty : (variantTable set.filterGroups).isEmpty = false := by
    obtain ⟨name, hfilter, hne, -⟩ := htaken
    exact Bool.eq_false_iff.2 fun hempty =>
      hne ((isEmpty_variantTable_iff hset).1 hempty name hfilter)
  cases hcollision : set.filterGroups.keys.findSome? set.baseCollision? with
  | none =>
    exact absurd htaken ((forall_baseCollision?_eq_none_iff hset).1
      (List.findSome?_eq_none_iff.1 hcollision))
  | some collision =>
    obtain ⟨base, -, hbase⟩ := List.exists_of_findSome?_eq_some hcollision
    obtain ⟨name, first, second, rfl⟩ := exists_nameCollision_of_baseCollision? hbase
    exact ⟨name, first, second, by rw [combineFilters_of_variant hempty, hcollision]⟩

/-- **Combining filters.** On a valid set in which the base of every filter is its own base, the
table turns each variant to its base, and replaces nothing if there is none. With it, combining
filters fails for a name collision exactly when the base of a variant is the name of an enum or of
a definition that is no filter. Otherwise it fails for incompatible filters exactly when two filters
of one base have fields of one name that differ as lists or in the replaced type. Otherwise it gives
the set that `Combined` describes: valid, with one definition for each base and no variant, and not
changed by combining again. -/
theorem combineFilters_outcome (hset : set.validate = .ok ()) (hstable : ∀ name,
    set.hasFilter name = true → filterBase (filterBase name) = filterBase name) :
    ((∀ name, (variantTable set.filterGroups).apply name
        = if set.hasFilter name then filterBase name else name) ∧
      ((variantTable set.filterGroups).isEmpty = true ↔
        ∀ name, set.hasFilter name = true → filterBase name = name)) ∧
    ((∃ name first second, set.combineFilters = .error (.nameCollision name first second)) ↔
      set.BaseTaken) ∧
    (¬set.BaseTaken → ((∃ left right known field,
      set.combineFilters = .error (.incompatibleFilters left right known field)) ↔
        ∃ base, set.VariantsDisagree base)) ∧
    (¬set.BaseTaken → (¬∃ base, set.VariantsDisagree base) →
      ∃ result, set.combineFilters = .ok result ∧ Combined set result) := by
  have hvalid := validate_eq_ok_iff.1 hset
  have houtcome := combineFilters_of_free hvalid hstable
  refine ⟨⟨apply_variantTable hvalid.toKeyed, isEmpty_variantTable_iff hvalid.toKeyed⟩,
    ⟨?_, combineFilters_of_taken hvalid.toKeyed⟩, fun hfree => ⟨?_, ?_⟩, ?_⟩
  · rintro ⟨name, first, second, herror⟩
    by_contra hfree
    by_cases hagree : ∀ base, ¬set.VariantsDisagree base
    · obtain ⟨result, hok, -⟩ := (houtcome hfree).ok hagree
      cases hok.symm.trans herror
    · obtain ⟨left, right, known, field, hother⟩ := (houtcome hfree).incompatible hagree
      cases hother.symm.trans herror
  · rintro ⟨left, right, known, field, herror⟩
    by_contra hagree
    obtain ⟨result, hok, -⟩ := (houtcome hfree).ok (not_exists.1 hagree)
    cases hok.symm.trans herror
  · intro hdisagree
    exact (houtcome hfree).incompatible fun hagree => not_exists.2 hagree hdisagree
  · intro hfree hagree
    exact (houtcome hfree).ok (not_exists.1 hagree)

/-- A filter with a variant that adds a field, and a model with a field of either. -/
def stringFilters : DefinitionSet :=
  ⟨.ofList [
    ("NestedStringNullableFilter", ⟨"NestedStringNullableFilter", .input,
      [⟨"equals", .scalar .string, true, false⟩,
        ⟨"not", .definition "NestedStringNullableFilter", true, false⟩], none⟩),
    ("StringFilter", ⟨"StringFilter", .input,
      [⟨"not", .definition "StringFilter", false, false⟩], some "User"⟩),
    ("User", ⟨"User", .model, [⟨"name", .union [.definition "StringFilter",
      .definition "NestedStringNullableFilter"], false, false⟩], none⟩)], ∅⟩

theorem combineFilters_outcome_stringFilters : stringFilters.validate = .ok () ∧
    ∃ result, stringFilters.combineFilters = .ok result ∧ Combined stringFilters result ∧
      result.types.get? "StringFilter" = some ⟨"StringFilter", .input,
        [⟨"not", .definition "StringFilter", true, false⟩,
          ⟨"equals", .scalar .string, true, false⟩], some "User"⟩ := by
  have hset : stringFilters.validate = .ok () := by decide
  have hstable : ∀ name, stringFilters.hasFilter name = true →
      filterBase (filterBase name) = filterBase name := by
    have hall : ∀ name ∈ stringFilters.types.keys,
        filterBase (filterBase name) = filterBase name := by decide +kernel
    exact fun name hname => hall name (NameMap.mem_keys_iff.2 (mem_types_of_hasFilter hname))
  obtain ⟨-, hcollision, hincompatible, hcombined⟩ := combineFilters_outcome hset hstable
  have hsome : stringFilters.combineFilters.toOption.isSome = true := by decide +kernel
  have hfree : ¬stringFilters.BaseTaken := fun htaken => by
    obtain ⟨_, _, _, herror⟩ := hcollision.2 htaken
    rw [herror] at hsome
    cases hsome
  obtain ⟨result, hok, hresult⟩ := hcombined hfree fun hdisagree => by
    obtain ⟨_, _, _, _, herror⟩ := (hincompatible hfree).2 hdisagree
    rw [herror] at hsome
    cases hsome
  have hvariant : stringFilters.HasVariant "StringFilter" :=
    ⟨"NestedStringNullableFilter", by decide, by decide, by decide⟩
  exact ⟨hset, result, hok, hresult, (hresult.merged hvariant).trans (by decide +kernel)⟩

end DefinitionSet

end SchemaLayout
