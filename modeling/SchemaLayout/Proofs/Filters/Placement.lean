import Mathlib.Logic.Function.Iterate
import SchemaLayout.Proofs.Filters.Groups

/-!
# Where filters are merged

Groups are merged in the order of their bases, so a filter that is a base itself may be taken away
again by a group behind it. `placeAfter` follows the names alone: it says under which name the
fields of a definition are after some groups, and how many merges they went through.

* `placeAfter_of_member`: a variant is in its place until its own group is merged.
* `exists_place_iff`: the name that a reference is turned to stays taken exactly when it is not that
  of a filter whose base is behind it.
-/
namespace SchemaLayout

namespace Filters

/-! ## Following one name -/

/-- One group more: what is under the base or one of the members goes under the base, unless the
group has no variant. -/
def absorb (place : String × Nat) (group : String × List String) : String × Nat :=
  if group.2.all (· == group.1) then place
  else if place.1 = group.1 ∨ place.1 ∈ group.2 then (group.1, place.2 + 1)
  else place

/-- Under which name the groups leave what was held under a name, and after how many merges. -/
def placeAfter (groups : List (String × List String)) (name : String) : String × Nat :=
  groups.foldl absorb (name, 0)

theorem placeAfter_append (done rest : List (String × List String)) (name : String) :
    placeAfter (done ++ rest) name = rest.foldl absorb (placeAfter done name) :=
  List.foldl_append

theorem placeAfter_concat (done : List (String × List String)) (group : String × List String)
    (name : String) : placeAfter (done ++ [group]) name = absorb (placeAfter done name) group :=
  placeAfter_append done [group] name

theorem absorb_of_all {place : String × Nat} {group : String × List String}
    (h : group.2.all (· == group.1) = true) : absorb place group = place := by
  unfold absorb
  rw [if_pos h]

theorem absorb_of_mem {place : String × Nat} {group : String × List String}
    (h : ¬group.2.all (· == group.1) = true) (hplace : place.1 = group.1 ∨ place.1 ∈ group.2) :
    absorb place group = (group.1, place.2 + 1) := by
  unfold absorb
  rw [if_neg h, if_pos hplace]

theorem absorb_of_not_mem {place : String × Nat} {group : String × List String}
    (hbase : place.1 ≠ group.1) (hmem : place.1 ∉ group.2) : absorb place group = place := by
  unfold absorb
  split
  · rfl
  · rw [if_neg (not_or.2 ⟨hbase, hmem⟩)]

theorem absorb_fst_eq_base_iff {place : String × Nat} {group : String × List String}
    (h : ¬group.2.all (· == group.1) = true) :
    (absorb place group).1 = group.1 ↔ place.1 = group.1 ∨ place.1 ∈ group.2 := by
  constructor
  · intro heq
    by_contra hnot
    obtain ⟨hbase, hmem⟩ := not_or.1 hnot
    rw [absorb_of_not_mem hbase hmem] at heq
    exact hbase heq
  · intro hplace
    rw [absorb_of_mem h hplace]

theorem absorb_fst_eq_iff {place : String × Nat} {group : String × List String} {name : String}
    (h : ¬group.2.all (· == group.1) = true) (hne : name ≠ group.1) :
    (absorb place group).1 = name ↔ name ∉ group.2 ∧ place.1 = name := by
  constructor
  · rintro rfl
    obtain ⟨hbase, hmem⟩ := not_or.1 (mt (absorb_fst_eq_base_iff h).2 hne)
    rw [absorb_of_not_mem hbase hmem]
    exact ⟨hmem, rfl⟩
  · rintro ⟨hmem, rfl⟩
    rw [absorb_of_not_mem hne hmem]

theorem absorb_fst_of_mem {place : String × Nat} {group : String × List String}
    (hmem : place.1 ∈ group.2) : (absorb place group).1 = group.1 := by
  by_cases hall : group.2.all (· == group.1) = true
  · rw [absorb_of_all hall]
    exact beq_iff_eq.1 (List.all_eq_true.1 hall _ hmem)
  · rw [absorb_of_mem hall (Or.inr hmem)]

theorem foldl_absorb_fst {groups : List (String × List String)} {place : String × Nat}
    (h : ∀ group ∈ groups, place.1 ∉ group.2) : (groups.foldl absorb place).1 = place.1 := by
  induction groups generalizing place with
  | nil => rfl
  | cons group groups ih =>
    have hstep : (absorb place group).1 = place.1 := by
      by_cases hbase : place.1 = group.1
      · unfold absorb
        split
        · rfl
        · rw [if_pos (Or.inl hbase)]
          exact hbase.symm
      · rw [absorb_of_not_mem hbase (h group List.mem_cons_self)]
    rw [List.foldl_cons, ih fun other hother => hstep ▸ h other (List.mem_cons_of_mem _ hother)]
    exact hstep

/-- What was moved is under the base of a group. -/
theorem foldl_absorb_fst_eq_or (groups : List (String × List String)) (place : String × Nat) :
    (groups.foldl absorb place).1 = place.1 ∨
      ∃ group ∈ groups, (groups.foldl absorb place).1 = group.1 := by
  induction groups generalizing place with
  | nil => exact Or.inl rfl
  | cons group groups ih =>
    rw [List.foldl_cons]
    rcases ih (absorb place group) with hkept | ⟨other, hother, hplace⟩
    · rw [hkept]
      unfold absorb
      split
      · exact Or.inl rfl
      · split
        · exact Or.inr ⟨group, List.mem_cons_self, rfl⟩
        · exact Or.inl rfl
    · exact Or.inr ⟨other, List.mem_cons_of_mem _ hother, hplace⟩

theorem absorb_fst_ne {place : String × Nat} {group : String × List String} {name : String}
    (hbase : group.1 ≠ name) (hplace : place.1 ≠ name) : (absorb place group).1 ≠ name := by
  unfold absorb
  split
  · exact hplace
  · split
    · exact hbase
    · exact hplace

/-- Nothing comes under a name that is no base. -/
theorem foldl_absorb_fst_ne {groups : List (String × List String)} {place : String × Nat}
    {name : String} (h : ∀ group ∈ groups, group.1 ≠ name) (hplace : place.1 ≠ name) :
    (groups.foldl absorb place).1 ≠ name := by
  induction groups generalizing place with
  | nil => exact hplace
  | cons group groups ih =>
    exact ih (fun other hother => h other (List.mem_cons_of_mem _ hother))
      (absorb_fst_ne (h group List.mem_cons_self) hplace)

/-! ## The groups of a set -/

section OfSet

variable {set : DefinitionSet} (hset : set.Keyed) {done rest : List (String × List String)}
  {base : String} {members : List String}
  (hsplit : set.filterGroups.entries = done ++ (base, members) :: rest)
include hsplit

theorem base_order : (∀ group ∈ done, group.1 < base) ∧ ∀ group ∈ rest, base < group.1 := by
  have hordered := set.filterGroups.ordered
  rw [hsplit, List.pairwise_append, List.pairwise_cons] at hordered
  exact ⟨fun group hgroup => hordered.2.2 group hgroup _ List.mem_cons_self, hordered.2.1.1⟩

theorem group_mem_entries : (base, members) ∈ set.filterGroups.entries :=
  hsplit ▸ List.mem_append_right _ List.mem_cons_self

include hset

theorem mem_group_iff {name : String} :
    name ∈ members ↔ set.hasFilter name = true ∧ filterBase name = base :=
  DefinitionSet.mem_filterGroups_iff hset (group_mem_entries hsplit)

theorem filterBase_of_mem_group {group : String × List String} {name : String}
    (hgroup : group ∈ done ++ (base, members) :: rest) (hname : name ∈ group.2) :
    filterBase name = group.1 := by
  have hentry : (group.1, group.2) ∈ set.filterGroups.entries := hsplit ▸ hgroup
  exact ((DefinitionSet.mem_filterGroups_iff hset hentry).1 hname).2

/-- A filter is in its place until its own group is merged. -/
theorem placeAfter_of_member {name : String} (hname : name ∈ members) :
    (placeAfter done name).1 = name := by
  refine foldl_absorb_fst fun group hgroup hmem => ?_
  have hbase := filterBase_of_mem_group hset hsplit (List.mem_append_left _ hgroup) hmem
  rw [((mem_group_iff hset hsplit).1 hname).2] at hbase
  exact String.lt_irrefl _ (hbase ▸ (base_order hsplit).1 group hgroup)

end OfSet

section WholeRun

variable {set : DefinitionSet} (hset : set.Keyed)
include hset

/-- Nothing is left under the name of a filter whose base is behind it. -/
theorem placeAfter_ne_of_lt {name : String} (hname : set.hasFilter name = true)
    (hlt : name < filterBase name) (old : String) :
    (placeAfter set.filterGroups.entries old).1 ≠ name := by
  have hne : filterBase name ≠ name := fun heq => String.lt_irrefl _ (heq ▸ hlt)
  obtain ⟨members, hgroup⟩ := DefinitionSet.exists_group hset hname
  obtain ⟨done, rest, hsplit⟩ := List.append_of_mem hgroup
  have hmem : name ∈ members := (mem_group_iff hset hsplit).2 ⟨hname, rfl⟩
  rw [hsplit, placeAfter_append, List.foldl_cons]
  refine foldl_absorb_fst_ne (fun group hrest heq => ?_) ?_
  · have hbehind := (base_order hsplit).2 group hrest
    rw [heq] at hbehind
    exact String.lt_asymm hlt hbehind
  · by_cases hplace : (placeAfter done old).1 = name
    · rw [← hplace] at hmem
      rw [absorb_fst_of_mem hmem]
      exact hne
    · exact absorb_fst_ne hne hplace

/-- A filter ends under its base, unless that is a filter whose own base is behind it. -/
theorem placeAfter_eq_filterBase {name : String} (hname : set.hasFilter name = true)
    (hkept : set.hasFilter (filterBase name) = true →
      ¬filterBase name < filterBase (filterBase name)) :
    (placeAfter set.filterGroups.entries name).1 = filterBase name := by
  obtain ⟨members, hgroup⟩ := DefinitionSet.exists_group hset hname
  obtain ⟨done, rest, hsplit⟩ := List.append_of_mem hgroup
  have hmem : name ∈ members := (mem_group_iff hset hsplit).2 ⟨hname, rfl⟩
  have hplace : (absorb (placeAfter done name) (filterBase name, members)).1 = filterBase name := by
    rw [← placeAfter_of_member hset hsplit hmem] at hmem
    exact absorb_fst_of_mem hmem
  rw [hsplit, placeAfter_append, List.foldl_cons]
  refine (foldl_absorb_fst fun group hrest hin => ?_).trans hplace
  -- a later group with the base as a member would have to be that of the base's own base
  rw [hplace] at hin
  have hgroup' : (group.1, group.2) ∈ set.filterGroups.entries := by
    rw [hsplit]
    simp [hrest]
  obtain ⟨hfilter, hbase⟩ := (DefinitionSet.mem_filterGroups_iff hset hgroup').1 hin
  have hbehind := (base_order hsplit).2 group hrest
  rw [← hbase] at hbehind
  exact hkept hfilter hbehind

theorem placeAfter_of_not_filter {name : String} (hname : ¬set.hasFilter name = true) :
    (placeAfter set.filterGroups.entries name).1 = name := by
  refine foldl_absorb_fst fun group hgroup hmem => hname ?_
  have hentry : (group.1, group.2) ∈ set.filterGroups.entries := hgroup
  exact ((DefinitionSet.mem_filterGroups_iff hset hentry).1 hmem).1

/-- Turning a filter to its base any number of times gives the base of some filter. -/
theorem exists_filterBase_eq {name : String} (hname : set.hasFilter name = true) (count : Nat) :
    ∃ filter, set.hasFilter filter = true ∧
      filterBase filter = (DefinitionSet.variantTable set.filterGroups).apply^[count + 1] name := by
  induction count with
  | zero =>
    refine ⟨name, hname, ?_⟩
    rw [Function.iterate_one, DefinitionSet.apply_variantTable hset, if_pos hname]
  | succ count ih =>
    obtain ⟨filter, hfilter, hbase⟩ := ih
    rw [Function.iterate_succ_apply', ← hbase, DefinitionSet.apply_variantTable hset]
    split
    · rename_i hnext
      exact ⟨_, hnext, rfl⟩
    · exact ⟨filter, hfilter, rfl⟩

/-- The name that a reference is turned to is taken in the end, unless it is that of a filter whose
base is behind it. -/
theorem exists_place_iff {target : String} (htarget : target ∈ set.types) (count : Nat) :
    let table := DefinitionSet.variantTable set.filterGroups
    let turned := table.apply^[count + 1] target
    (∃ name ∈ set.types, (placeAfter set.filterGroups.entries name).1 = turned) ↔
      ¬turned < table.apply turned := by
  intro table turned
  have htable : table.apply turned = if set.hasFilter turned then filterBase turned else turned :=
    DefinitionSet.apply_variantTable hset turned
  by_cases hfilter : set.hasFilter target = true
  · obtain ⟨filter, hmem, hbase⟩ := exists_filterBase_eq hset hfilter count
    replace hbase : filterBase filter = turned := hbase
    constructor
    · rintro ⟨name, -, hplace⟩ hlt
      rw [htable] at hlt
      split at hlt
      · rename_i hturned
        exact placeAfter_ne_of_lt hset hturned hlt name hplace
      · exact String.lt_irrefl _ hlt
    · intro hkept
      refine ⟨filter, DefinitionSet.mem_types_of_hasFilter hmem, ?_⟩
      rw [← hbase]
      refine placeAfter_eq_filterBase hset hmem fun hnext hlt => hkept ?_
      rw [hbase] at hnext hlt
      rwa [htable, if_pos hnext]
  · have hfixed : table.apply target = target := by
      rw [DefinitionSet.apply_variantTable hset, if_neg hfilter]
    have hturned : turned = target := Function.iterate_fixed hfixed (count + 1)
    rw [hturned, hfixed]
    exact ⟨fun _ => String.lt_irrefl _,
      fun _ => ⟨target, htarget, placeAfter_of_not_filter hset hfilter⟩⟩

end WholeRun

end Filters

namespace DefinitionSet

/-- The name that a reference of a definition is turned to: it is renamed in every merge that the
definition goes through, and once more at the end. -/
def turned (set : DefinitionSet) (definition target : String) : String :=
  (variantTable set.filterGroups).apply^[
    (Filters.placeAfter set.filterGroups.entries definition).2 + 1] target

/-- Some reference is turned to a filter that is a variant of a base behind it. -/
def StrandsReference (set : DefinitionSet) : Prop :=
  ∃ name definition target, set.types.get? name = some definition ∧
    .definition target ∈ definition.leaves ∧
      set.turned name target < (variantTable set.filterGroups).apply (set.turned name target)

end DefinitionSet

end SchemaLayout
