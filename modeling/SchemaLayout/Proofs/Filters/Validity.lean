import SchemaLayout.Proofs.Filters.Merging
import SchemaLayout.Proofs.Filters.Placement

/-!
# Combining filters and valid sets

After each group the types are what `placeAfter` says: a name is taken exactly when some definition
was placed there, and a definition has the leaves of all definitions placed under its name, each
renamed as often as they were merged (`Placed`). Merging a group keeps this (`Placed.step`).

References are renamed once more at the end, always by the same table. So the set that comes out is
valid unless a reference is turned to a filter that is itself merged away later
(`valid_combineFilters_iff`), and always where bases are no variants
(`valid_combineFilters_of_stable`).
-/
namespace SchemaLayout

namespace Filters

variable {set : DefinitionSet} {table : RenameTable}

/-! ## One group -/

theorem mem_groupVariants {types : NameMap TypeDefinition} {base : String} {members : List String}
    {variant : TypeDefinition} : variant ∈ DefinitionSet.groupVariants types base members ↔
      ∃ name, (name = base ∨ name ∈ members) ∧ types.get? name = some variant := by
  simp only [DefinitionSet.groupVariants, List.mem_filterMap, List.mem_cons, List.mem_filter,
    bne_iff_ne]
  constructor
  · rintro ⟨name, hname, hget⟩
    exact ⟨name, hname.imp_right And.left, hget⟩
  · rintro ⟨name, hname, hget⟩
    by_cases hbase : name = base
    · exact ⟨name, Or.inl hbase, hget⟩
    · exact ⟨name, Or.inr ⟨hname.resolve_left hbase, hbase⟩, hget⟩

theorem get?_insert_erased (types : NameMap TypeDefinition) (base : String) (members : List String)
    (merged : TypeDefinition) (name : String) :
    (((members.foldl NameMap.erase types).erase base).insert base merged).get? name =
      if name = base then some merged
      else if name ∈ members then none else types.get? name := by
  rw [NameMap.get?_insert, NameMap.get?_erase, NameMap.get?_foldl_erase]
  by_cases hbase : name = base
  · rw [if_pos hbase, if_pos hbase]
  · rw [if_neg hbase, if_neg hbase, if_neg hbase]

theorem mergeGroup_of_all {types : NameMap TypeDefinition} {group : String × List String}
    (hall : group.2.all (· == group.1) = true) :
    DefinitionSet.mergeGroup table types group = .ok types :=
  if_pos hall

/-- A group with a variant gives its base the merged filter and takes its members away. -/
theorem mergeGroup_eq_ok {types next : NameMap TypeDefinition} {group : String × List String}
    (hvariant : ¬group.2.all (· == group.1) = true)
    (h : DefinitionSet.mergeGroup table types group = .ok next) : ∃ merged,
      mergeVariants table group.1 (DefinitionSet.groupVariants types group.1 group.2) = .ok merged ∧
      ∀ name, next.get? name = if name = group.1 then some merged
        else if name ∈ group.2 then none else types.get? name := by
  unfold DefinitionSet.mergeGroup at h
  rw [if_neg hvariant] at h
  cases hmerged : mergeVariants table group.1
      (DefinitionSet.groupVariants types group.1 group.2) with
  | error cause => rw [hmerged] at h; cases h
  | ok merged =>
    rw [hmerged] at h
    cases h
    exact ⟨merged, rfl, get?_insert_erased types group.1 group.2 merged⟩

theorem get?_mergeGroup {types next : NameMap TypeDefinition} {group : String × List String}
    (hnext : DefinitionSet.mergeGroup table types group = .ok next) {name : String}
    {definition : TypeDefinition} (hget : next.get? name = some definition) :
    name = group.1 ∧ definition.name = name ∨ types.get? name = some definition := by
  by_cases hvariant : group.2.all (· == group.1) = true
  · rw [mergeGroup_of_all hvariant] at hnext
    cases hnext
    exact Or.inr hget
  obtain ⟨merged, hmerged, hnext⟩ := mergeGroup_eq_ok hvariant hnext
  rw [hnext] at hget
  split at hget
  · rename_i hname
    cases hget
    exact Or.inl ⟨hname, (name_mergeVariants hmerged).trans hname.symm⟩
  · split at hget
    · cases hget
    · exact Or.inr hget

theorem named_mergeGroup {types next : NameMap TypeDefinition} {group : String × List String}
    (h : ∀ {name definition}, types.get? name = some definition → definition.name = name)
    (hnext : DefinitionSet.mergeGroup table types group = .ok next) {name : String}
    {definition : TypeDefinition} (hget : next.get? name = some definition) :
    definition.name = name := by
  rcases get?_mergeGroup hnext hget with ⟨-, hname⟩ | hold
  · exact hname
  · exact h hold

theorem keyed_mergeGroup {types next : NameMap TypeDefinition} {enums : NameMap EnumDefinition}
    {group : String × List String} (h : DefinitionSet.Keyed ⟨types, enums⟩)
    (hbase : group.1 ∉ enums) (hnext : DefinitionSet.mergeGroup table types group = .ok next) :
    DefinitionSet.Keyed ⟨next, enums⟩ := by
  refine ⟨named_mergeGroup h.types hnext, h.enums, fun hmem => ?_⟩
  obtain ⟨definition, hget⟩ := NameMap.mem_iff_get?.1 hmem
  rcases get?_mergeGroup hnext hget with ⟨rfl, -⟩ | hold
  · exact hbase
  · exact h.disjoint (NameMap.mem_of_get? hold)

/-! ## All groups -/

/-- What the types are after some groups. -/
structure Placed (set : DefinitionSet) (table : RenameTable) (done : List (String × List String))
    (types : NameMap TypeDefinition) : Prop where
  named : ∀ {name definition}, types.get? name = some definition → definition.name = name
  wellFormed : ∀ {name definition}, types.get? name = some definition → definition.WellFormed
  taken : ∀ {name}, name ∈ types ↔ ∃ old ∈ set.types, (placeAfter done old).1 = name
  leaves : ∀ {name definition leaf}, types.get? name = some definition →
    (leaf ∈ definition.leaves ↔ ∃ old d, set.types.get? old = some d ∧
      (placeAfter done old).1 = name ∧
        ∃ x ∈ d.leaves, (TypeRef.renamedLeaf table)^[(placeAfter done old).2] x = leaf)

theorem placed_nil (hset : set.Valid) : Placed set table [] set.types where
  named := hset.types
  wellFormed := hset.wellFormed
  taken := ⟨fun h => ⟨_, h, rfl⟩, fun ⟨_, h, heq⟩ => heq ▸ h⟩
  leaves {name definition leaf} hget := by
    constructor
    · intro hleaf
      exact ⟨name, definition, hget, rfl, leaf, hleaf, rfl⟩
    · rintro ⟨old, d, hold, rfl, x, hx, rfl⟩
      cases hget.symm.trans hold
      exact hx

section Step

variable {done rest : List (String × List String)} {group : String × List String}
  {types next : NameMap TypeDefinition}

theorem Placed.of_all (h : Placed set table done types)
    (hall : group.2.all (· == group.1) = true) : Placed set table (done ++ [group]) types := by
  have hplace : ∀ old, placeAfter (done ++ [group]) old = placeAfter done old := fun old =>
    (placeAfter_concat done group old).trans (absorb_of_all hall)
  exact ⟨h.named, h.wellFormed, by simp only [hplace]; exact h.taken,
    by simp only [hplace]; exact h.leaves⟩

theorem Placed.wellFormed_variants (h : Placed set table done types) {base : String}
    {members : List String} : ∀ variant ∈ DefinitionSet.groupVariants types base members,
      variant.WellFormed := by
  intro variant hvariant
  obtain ⟨name, -, hget⟩ := mem_groupVariants.1 hvariant
  exact h.wellFormed hget

/-- A variant of the next group is still in its place, so there is something to go under the
base. -/
theorem Placed.exists_absorbed (hset : set.Keyed)
    (hsplit : set.filterGroups.entries = done ++ group :: rest) :
    ∃ old ∈ set.types, (placeAfter (done ++ [group]) old).1 = group.1 := by
  have hgroup : (group.1, group.2) ∈ set.filterGroups.entries := group_mem_entries hsplit
  obtain ⟨member, hmember⟩ := DefinitionSet.exists_member hset hgroup
  have hmem := (mem_group_iff hset hsplit).2 hmember
  refine ⟨member, DefinitionSet.mem_types_of_hasFilter hmember.1, ?_⟩
  rw [placeAfter_concat]
  refine absorb_fst_of_mem ?_
  rw [placeAfter_of_member hset hsplit hmem]
  exact hmem

/-- Merging a group places what its filters hold under the base: where names are taken exactly when
something was placed there, they still are. -/
theorem mem_mergeGroup_iff (hset : set.Keyed)
    (hsplit : set.filterGroups.entries = done ++ group :: rest)
    (htaken : ∀ {name}, name ∈ types ↔ ∃ old ∈ set.types, (placeAfter done old).1 = name)
    (hnext : DefinitionSet.mergeGroup table types group = .ok next) {name : String} :
    name ∈ next ↔ ∃ old ∈ set.types, (placeAfter (done ++ [group]) old).1 = name := by
  simp only [placeAfter_concat]
  by_cases hvariant : group.2.all (· == group.1) = true
  · rw [mergeGroup_of_all hvariant] at hnext
    cases hnext
    simp only [absorb_of_all hvariant]
    exact htaken
  obtain ⟨merged, -, hget⟩ := mergeGroup_eq_ok hvariant hnext
  by_cases hbase : name = group.1
  · subst hbase
    have habsorbed := Placed.exists_absorbed hset hsplit
    simp only [placeAfter_concat] at habsorbed
    exact iff_of_true (NameMap.mem_of_get? ((hget _).trans (if_pos rfl))) habsorbed
  · have hold : name ∈ next ↔ name ∉ group.2 ∧ name ∈ types := by
      simp only [NameMap.mem_iff_get?, hget, if_neg hbase]
      by_cases hmem : name ∈ group.2 <;> simp [hmem]
    rw [hold, htaken]
    simp only [absorb_fst_eq_iff hvariant hbase]
    constructor
    · rintro ⟨hmem, old, hin, hplace⟩
      exact ⟨old, hin, hmem, hplace⟩
    · rintro ⟨old, hin, hmem, hplace⟩
      exact ⟨hmem, old, hin, hplace⟩

/-- The leaves of the merged filter come from everything placed under its group before. -/
theorem Placed.mem_leaves_merged (h : Placed set table done types)
    (hvariant : ¬group.2.all (· == group.1) = true) {merged : TypeDefinition}
    (hmerged : mergeVariants table group.1 (DefinitionSet.groupVariants types group.1 group.2)
      = .ok merged) {leaf : TypeRef} :
    leaf ∈ merged.leaves ↔ ∃ old d, set.types.get? old = some d ∧
      (placeAfter (done ++ [group]) old).1 = group.1 ∧
        ∃ x ∈ d.leaves,
          (TypeRef.renamedLeaf table)^[(placeAfter (done ++ [group]) old).2] x = leaf := by
  rw [mem_leaves_mergeVariants h.wellFormed_variants hmerged]
  simp only [placeAfter_concat, absorb_fst_eq_base_iff hvariant]
  constructor
  · rintro ⟨variant, hmem, x, hx, rfl⟩
    obtain ⟨name, hname, hget⟩ := mem_groupVariants.1 hmem
    obtain ⟨old, d, hold, rfl, y, hy, rfl⟩ := (h.leaves hget).1 hx
    refine ⟨old, d, hold, hname, y, hy, ?_⟩
    rw [absorb_of_mem hvariant hname, Function.iterate_succ_apply']
  · rintro ⟨old, d, hold, hname, y, hy, rfl⟩
    obtain ⟨variant, hget⟩ := NameMap.mem_iff_get?.1
      (h.taken.2 ⟨old, NameMap.mem_of_get? hold, rfl⟩)
    refine ⟨variant, mem_groupVariants.2 ⟨_, hname, hget⟩, _,
      (h.leaves hget).2 ⟨old, d, hold, rfl, y, hy, rfl⟩, ?_⟩
    rw [absorb_of_mem hvariant hname, Function.iterate_succ_apply']

/-- Merging a group places what its filters hold under the base and touches nothing else. -/
theorem Placed.step (hset : set.Keyed) (h : Placed set table done types)
    (hsplit : set.filterGroups.entries = done ++ group :: rest)
    (hnext : DefinitionSet.mergeGroup table types group = .ok next) :
    Placed set table (done ++ [group]) next := by
  by_cases hvariant : group.2.all (· == group.1) = true
  · rw [mergeGroup_of_all hvariant] at hnext
    cases hnext
    exact h.of_all hvariant
  obtain ⟨merged, hmerged, hget⟩ := mergeGroup_eq_ok hvariant hnext
  have hcases : ∀ {name definition}, next.get? name = some definition →
      name = group.1 ∧ definition = merged ∨
        name ≠ group.1 ∧ name ∉ group.2 ∧ types.get? name = some definition := by
    intro name definition hdef
    rw [hget] at hdef
    by_cases hbase : name = group.1
    · simpa [hbase, eq_comm] using hdef
    · by_cases hmem : name ∈ group.2
      · simp [hbase, hmem] at hdef
      · simpa [hbase, hmem] using hdef
  refine ⟨named_mergeGroup h.named hnext, ?_, mem_mergeGroup_iff hset hsplit h.taken hnext, ?_⟩
  · intro name definition hdef
    rcases hcases hdef with ⟨rfl, rfl⟩ | ⟨-, -, hold⟩
    · exact wellFormed_mergeVariants h.wellFormed_variants hmerged
    · exact h.wellFormed hold
  · intro name definition leaf hdef
    rcases hcases hdef with ⟨rfl, rfl⟩ | ⟨hbase, hmem, hold⟩
    · exact h.mem_leaves_merged hvariant hmerged
    · rw [h.leaves hold]
      refine exists₂_congr fun old d => and_congr_right fun _ => ?_
      rw [placeAfter_concat, absorb_fst_eq_iff hvariant hbase, and_assoc]
      constructor
      · rintro ⟨rfl, hleaf⟩
        exact ⟨hmem, rfl, by rwa [absorb_of_not_mem hbase hmem]⟩
      · rintro ⟨-, rfl, hleaf⟩
        exact ⟨rfl, by rwa [absorb_of_not_mem hbase hmem] at hleaf⟩

theorem Placed.run (hset : set.Keyed) (h : Placed set table done types)
    (hsplit : set.filterGroups.entries = done ++ rest) {result : NameMap TypeDefinition}
    (hresult : rest.foldlM (DefinitionSet.mergeGroup table) types = .ok result) :
    Placed set table set.filterGroups.entries result := by
  have hall : set.filterGroups.entries = done ++ (rest ++ []) := by rw [hsplit, List.append_nil]
  have hrun := Fallible.foldlM_keeps_done (P := Placed set table)
    (fun hsplit hplaced hnext => hplaced.step hset hsplit hnext) [] hall h hresult
  rwa [hsplit]

end Step

/-! ## Leaves renamed several times -/

theorem iterate_renamedLeaf_definition (table : RenameTable) (count : Nat) (name : String) :
    (TypeRef.renamedLeaf table)^[count] (.definition name)
      = .definition (table.apply^[count] name) := by
  induction count with
  | zero => rfl
  | succ count ih => rw [Function.iterate_succ_apply', Function.iterate_succ_apply', ih]; rfl

theorem iterate_renamedLeaf_enumeration {name : String} (h : table.get? name = none) (count : Nat) :
    (TypeRef.renamedLeaf table)^[count] (.enumeration name) = .enumeration name := by
  refine Function.iterate_fixed ?_ count
  show TypeRef.enumeration (table.apply name) = _
  rw [RenameTable.apply_of_get?_none h]

end Filters

namespace DefinitionSet

open Filters

variable {set result : DefinitionSet}

theorem get?_variantTable_of_mem_enums (hset : set.Keyed) {name : String} (h : name ∈ set.enums) :
    (variantTable set.filterGroups).get? name = none := by
  rw [get?_variantTable hset, if_neg]
  rintro ⟨hfilter, -⟩
  exact hset.disjoint (mem_types_of_hasFilter hfilter) h

theorem not_strandsReference_of_isEmpty (h : (variantTable set.filterGroups).isEmpty = true) :
    ¬set.StrandsReference := by
  rintro ⟨name, definition, target, -, -, hlt⟩
  rw [RenameTable.apply_of_isEmpty h] at hlt
  exact String.lt_irrefl _ hlt

theorem apply_variantTable_twice (hset : set.Keyed) (hstable : ∀ name,
    set.hasFilter name = true → filterBase (filterBase name) = filterBase name) (name : String) :
    (variantTable set.filterGroups).apply ((variantTable set.filterGroups).apply name)
      = (variantTable set.filterGroups).apply name := by
  simp only [apply_variantTable hset]
  by_cases hfilter : set.hasFilter name = true
  · rw [if_pos hfilter, hstable name hfilter, ite_self]
  · rw [if_neg hfilter, if_neg hfilter]

theorem not_strandsReference_of_stable (hset : set.Keyed) (hstable : ∀ name,
    set.hasFilter name = true → filterBase (filterBase name) = filterBase name) :
    ¬set.StrandsReference := by
  rintro ⟨name, definition, target, -, -, hlt⟩
  unfold turned at hlt
  rw [Function.iterate_succ_apply', apply_variantTable_twice hset hstable] at hlt
  exact String.lt_irrefl _ hlt

section Combined

variable {types : NameMap TypeDefinition}
  (hplaced : Placed set (variantTable set.filterGroups) set.filterGroups.entries types)
include hplaced

theorem mem_leaves_rewritten {name : String} {definition : TypeDefinition} {leaf : TypeRef}
    (hget : (rewriteReferences ⟨types, set.enums⟩ (variantTable set.filterGroups)).types.get? name
      = some definition) :
    leaf ∈ definition.leaves ↔ ∃ old d, set.types.get? old = some d ∧
      (placeAfter set.filterGroups.entries old).1 = name ∧ ∃ x ∈ d.leaves,
        (TypeRef.renamedLeaf (variantTable set.filterGroups))^[
          (placeAfter set.filterGroups.entries old).2 + 1] x = leaf := by
  rw [get?_rewriteReferences] at hget
  obtain ⟨before, hbefore, rfl⟩ := Option.map_eq_some_iff.1 hget
  rw [TypeDefinition.mem_leaves_renamed (hplaced.wellFormed hbefore)]
  constructor
  · rintro ⟨x, hx, rfl⟩
    obtain ⟨old, d, hold, hplace, y, hy, rfl⟩ := (hplaced.leaves hbefore).1 hx
    exact ⟨old, d, hold, hplace, y, hy, Function.iterate_succ_apply' ..⟩
  · rintro ⟨old, d, hold, hplace, y, hy, rfl⟩
    exact ⟨_, (hplaced.leaves hbefore).2 ⟨old, d, hold, hplace, y, hy, rfl⟩,
      (Function.iterate_succ_apply' ..).symm⟩

variable (hset : set.Valid)
  (hfree : ∀ base ∈ set.filterGroups.keys, set.baseCollision? base = none)
include hset

/-- The name that a reference is turned to has a definition, unless it is that of a variant of a
base behind it. -/
theorem mem_rewritten_iff {name target : String} (htarget : target ∈ set.types) :
    set.turned name target ∈
        (rewriteReferences ⟨types, set.enums⟩ (variantTable set.filterGroups)).types ↔
      ¬set.turned name target < (variantTable set.filterGroups).apply (set.turned name target) := by
  rw [mem_rewriteReferences, hplaced.taken]
  exact exists_place_iff hset.toKeyed htarget _

include hfree

theorem not_mem_enums_of_placed {name : String} (hname : name ∈ types) : name ∉ set.enums := by
  obtain ⟨old, hold, rfl⟩ := hplaced.taken.1 hname
  rcases foldl_absorb_fst_eq_or set.filterGroups.entries (old, 0) with
    hkept | ⟨group, hgroup, hbase⟩
  · rw [placeAfter, hkept]
    exact hset.disjoint hold
  · rw [placeAfter, hbase]
    exact (baseCollision?_eq_none_iff.1 (hfree _ (List.mem_map.2 ⟨group, hgroup, rfl⟩))).1

theorem valid_rewritten_iff :
    (rewriteReferences ⟨types, set.enums⟩ (variantTable set.filterGroups)).Valid ↔
      ¬set.StrandsReference := by
  constructor
  · rintro hvalid ⟨name, definition, target, hget, hleaf, hlt⟩
    have htarget : target ∈ set.types := hset.resolved hget _ hleaf
    have hplace : (placeAfter set.filterGroups.entries name).1 ∈ (rewriteReferences
        ⟨types, set.enums⟩ (variantTable set.filterGroups)).types :=
      mem_rewriteReferences.2 (hplaced.taken.2 ⟨name, NameMap.mem_of_get? hget, rfl⟩)
    obtain ⟨d, hd⟩ := NameMap.mem_iff_get?.1 hplace
    have hmem : .definition (set.turned name target) ∈ d.leaves :=
      (mem_leaves_rewritten hplaced hd).2
        ⟨name, definition, hget, rfl, _, hleaf, iterate_renamedLeaf_definition ..⟩
    exact (mem_rewritten_iff hplaced hset htarget).1 (hvalid.resolved hd _ hmem) hlt
  · intro hstrands
    have hkeyed : DefinitionSet.Keyed ⟨types, set.enums⟩ :=
      ⟨hplaced.named, hset.enums, not_mem_enums_of_placed hplaced hset hfree⟩
    refine { hkeyed.rewriteReferences _ with wellFormed := ?_, resolved := ?_ }
    · intro name definition hget
      rw [get?_rewriteReferences] at hget
      obtain ⟨before, hbefore, rfl⟩ := Option.map_eq_some_iff.1 hget
      exact (hplaced.wellFormed hbefore).renamed _
    · intro name definition hget leaf hleaf
      obtain ⟨old, d, hold, -, x, hx, rfl⟩ := (mem_leaves_rewritten hplaced hget).1 hleaf
      have hresolved := hset.resolved hold x hx
      cases x with
      | scalar kind => rw [Function.iterate_fixed rfl]; rfl
      | union members => rw [Function.iterate_fixed rfl]; rfl
      | enumeration target =>
        rw [iterate_renamedLeaf_enumeration (get?_variantTable_of_mem_enums hset.toKeyed hresolved)]
        show target ∈ DefinitionSet.enums _
        rw [enums_rewriteReferences]
        exact hresolved
      | definition target =>
        rw [iterate_renamedLeaf_definition]
        have hkept : ¬set.turned old target
            < (variantTable set.filterGroups).apply (set.turned old target) :=
          fun hlt => hstrands ⟨old, d, target, hold, hx, hlt⟩
        exact (mem_rewritten_iff hplaced hset hresolved).2 hkept

end Combined

/-- Combining filters either finds no variant and changes nothing, or merges every group under a
free base and turns the references. -/
theorem combineFilters_cases (h : set.combineFilters = .ok result) :
    (variantTable set.filterGroups).isEmpty = true ∧ result = set ∨
      (∀ base ∈ set.filterGroups.keys, set.baseCollision? base = none) ∧
        ∃ types, set.filterGroups.entries.foldlM
            (mergeGroup (variantTable set.filterGroups)) set.types = .ok types ∧
          result = rewriteReferences ⟨types, set.enums⟩ (variantTable set.filterGroups) := by
  simp only [combineFilters] at h
  split at h
  · rename_i hempty
    cases h
    exact Or.inl ⟨hempty, rfl⟩
  split at h
  · cases h
  rename_i hfree
  obtain ⟨types, htypes, rfl⟩ := Fallible.map_eq_ok.1 h
  exact Or.inr ⟨List.findSome?_eq_none_iff.1 hfree, types, htypes, rfl⟩

theorem Keyed.combineFilters (hset : set.Keyed) (h : set.combineFilters = .ok result) :
    result.Keyed := by
  rcases combineFilters_cases h with ⟨-, rfl⟩ | ⟨hfree, types, htypes, rfl⟩
  · exact hset
  have hstep : ∀ {before : NameMap TypeDefinition} {group : String × List String}
      {after : NameMap TypeDefinition}, group ∈ set.filterGroups.entries →
      Keyed ⟨before, set.enums⟩ →
      mergeGroup (variantTable set.filterGroups) before group = .ok after →
      Keyed ⟨after, set.enums⟩ := by
    intro before group after hgroup hbefore hafter
    have hbase := hfree group.1 (List.mem_map.2 ⟨group, hgroup, rfl⟩)
    exact keyed_mergeGroup hbefore (baseCollision?_eq_none_iff.1 hbase).1 hafter
  have hmerged : Keyed ⟨types, set.enums⟩ :=
    Fallible.foldlM_keeps_of_mem (P := fun types => Keyed ⟨types, set.enums⟩) hstep hset htypes
  exact hmerged.rewriteReferences _

/-- **Combining filters.** For a valid set, the result is valid exactly when no reference is turned
to a filter that is merged away after that. -/
theorem valid_combineFilters_iff (hset : set.Valid) (h : set.combineFilters = .ok result) :
    result.Valid ↔ ¬set.StrandsReference := by
  rcases combineFilters_cases h with ⟨hempty, rfl⟩ | ⟨hfree, types, htypes, rfl⟩
  · exact iff_of_true hset (not_strandsReference_of_isEmpty hempty)
  · exact valid_rewritten_iff ((placed_nil hset).run hset.toKeyed rfl htypes) hset hfree

/-- Where bases are no variants, combining filters gives a valid set for a valid one. -/
theorem valid_combineFilters_of_stable (hset : set.Valid) (h : set.combineFilters = .ok result)
    (hstable : ∀ name, set.hasFilter name = true →
      filterBase (filterBase name) = filterBase name) : result.Valid :=
  (valid_combineFilters_iff hset h).2 (not_strandsReference_of_stable hset.toKeyed hstable)

end DefinitionSet

end SchemaLayout
