import SchemaLayout.Proofs.Filters.Validity
import SchemaLayout.Proofs.Names.Entries

/-!
# Counting merged filters

A group whose turn it is takes its filters out of the types, one name after the other (`takeOut`),
and puts one filter back, so all of them but one are counted as merged (`countGroup`). There is
something to count as long as every group finds a filter besides its base.

Bases may be variants of other bases, so a group may find its base gone, or take a merged filter
away that an earlier group put there. But bases come in order and a name has one base, so no group
takes away what is a member of a later one (`Reached.mem_of_member`).

**Result.** `mergeGroups_present`: every group finds all its members, and counting never fails.
-/
namespace SchemaLayout

namespace Filters

variable {set : DefinitionSet} {table : RenameTable} {types : NameMap TypeDefinition}

/-! ## Taking definitions out -/

/-- Takes what is under some names out of the types, one name after the other. -/
def takeOut (types : NameMap TypeDefinition) :
    List String → List TypeDefinition × NameMap TypeDefinition
  | [] => ([], types)
  | name :: names =>
    let (taken, left) := takeOut (types.erase name) names
    ((types.get? name).toList ++ taken, left)

theorem takeOut_cons (name : String) (names : List String) : takeOut types (name :: names) =
    ((types.get? name).toList ++ (takeOut (types.erase name) names).1,
      (takeOut (types.erase name) names).2) :=
  rfl

theorem get?_takeOut (names : List String) (key : String) :
    (takeOut types names).2.get? key = if key ∈ names then none else types.get? key := by
  have hleft : (takeOut types names).2 = names.foldl NameMap.erase types := by
    induction names generalizing types with
    | nil => rfl
    | cons name names ih => exact ih
  rw [hleft, NameMap.get?_foldl_erase]

theorem not_mem_takeOut {names : List String} {key : String} (h : key ∈ names) :
    key ∉ (takeOut types names).2 := by
  rw [← NameMap.get?_eq_none_iff, get?_takeOut, if_pos h]

/-- Where no name is listed twice, what is taken is what was there in the beginning. -/
theorem takeOut_eq_filterMap {names : List String} (hnames : names.Nodup) :
    (takeOut types names).1 = names.filterMap types.get? := by
  induction names generalizing types with
  | nil => rfl
  | cons name names ih =>
    obtain ⟨hout, hrest⟩ := List.nodup_cons.1 hnames
    have hkept : names.filterMap (types.erase name).get? = names.filterMap types.get? := by
      refine List.filterMap_congr fun other hother => ?_
      rw [NameMap.get?_erase, if_neg]
      rintro rfl
      exact hout hother
    rw [takeOut_cons, ih hrest, hkept, List.filterMap_cons]
    cases types.get? name <;> rfl

theorem length_takeOut (names : List String) (types : NameMap TypeDefinition) :
    (takeOut types names).1.length + (takeOut types names).2.size = types.size := by
  induction names generalizing types with
  | nil => simp [takeOut]
  | cons name names ih =>
    have hfirst := types.size_erase name
    have hrest := ih (types.erase name)
    simp only [takeOut_cons, List.length_append]
    omega

theorem map_name_filterMap
    (hnamed : ∀ {name definition}, types.get? name = some definition → definition.name = name)
    (names : List String) :
    (names.filterMap types.get?).map (·.name) = names.filter (· ∈ types) := by
  induction names with
  | nil => rfl
  | cons name names ih =>
    rw [List.filterMap_cons, List.filter_cons]
    cases hget : types.get? name with
    | none => simp [NameMap.get?_eq_none_iff.1 hget, ih]
    | some definition => simp [NameMap.mem_of_get? hget, hnamed hget, ih]

/-! ## Counting -/

/-- The names that a group takes out: its base, and behind it the other members. -/
def groupNames (group : String × List String) : List String :=
  group.1 :: group.2.filter (· != group.1)

/-- Why a count of merged filters ends early. -/
inductive CountFault where
  | belowZero
  | merge (cause : SchemaError)

/-- One group merged, with the filters that it takes out added to the count, all but one. Where it
takes none out, the count would go below zero. -/
def countGroup (table : RenameTable) (state : NameMap TypeDefinition × Nat)
    (group : String × List String) : Except CountFault (NameMap TypeDefinition × Nat) :=
  if group.2.all (· == group.1) then .ok state
  else
    let out := takeOut state.1 (groupNames group)
    if out.1.length < 1 then .error .belowZero
    else match mergeVariants table group.1 out.1 with
      | .error cause => .error (.merge cause)
      | .ok merged => .ok (out.2.insert group.1 merged, state.2 + (out.1.length - 1))

/-- Counting gives what merging gives, where types that are left and filters that are counted are
`total` together, and fails only as merging does. -/
structure Counts (total : Nat) (merged : Except SchemaError (NameMap TypeDefinition))
    (counted : Except CountFault (NameMap TypeDefinition × Nat)) : Prop where
  ok : ∀ types, merged = .ok types →
    ∃ count, counted = .ok (types, count) ∧ types.size + count = total
  error : ∀ cause, merged = .error cause → counted = .error (.merge cause)

theorem counts_ok {count total : Nat} (h : types.size + count = total) :
    Counts total (.ok types) (.ok (types, count)) where
  ok next hnext := by
    cases hnext
    exact ⟨count, rfl, h⟩
  error cause hcause := by cases hcause

theorem counts_error (total : Nat) (cause : SchemaError) :
    Counts total (.error cause) (.error (.merge cause)) where
  ok next hnext := by cases hnext
  error other hother := by
    cases hother
    rfl

/-! ## Groups in their turn -/

/-- What the types are after some groups, as far as their names go. -/
structure Reached (set : DefinitionSet) (done : List (String × List String))
    (types : NameMap TypeDefinition) : Prop where
  named : ∀ {name definition}, types.get? name = some definition → definition.name = name
  taken : ∀ {name}, name ∈ types ↔ ∃ old ∈ set.types, (placeAfter done old).1 = name

section Turns

variable (hset : set.Keyed) {done rest : List (String × List String)}
include hset

theorem reached_nil : Reached set [] set.types where
  named := hset.types
  taken := ⟨fun h => ⟨_, h, rfl⟩, fun ⟨_, h, heq⟩ => heq ▸ h⟩

theorem Reached.step {group : String × List String} {next : NameMap TypeDefinition}
    (hsplit : set.filterGroups.entries = done ++ group :: rest) (h : Reached set done types)
    (hnext : DefinitionSet.mergeGroup table types group = .ok next) :
    Reached set (done ++ [group]) next where
  named := named_mergeGroup h.named hnext
  taken := mem_mergeGroup_iff hset hsplit h.taken hnext

theorem Reached.run (hsplit : set.filterGroups.entries = done ++ rest)
    (hresult : done.foldlM (DefinitionSet.mergeGroup table) set.types = .ok types) :
    Reached set done types := by
  have hall : set.filterGroups.entries = [] ++ (done ++ rest) := hsplit
  exact Fallible.foldlM_keeps_done (P := Reached set)
    (fun hsplit hreached hnext => hreached.step hset hsplit hnext) rest hall (reached_nil hset)
    hresult

variable {base : String} {members : List String}
  (hsplit : set.filterGroups.entries = done ++ (base, members) :: rest)
include hsplit

theorem nodup_members : members.Nodup := by
  rw [DefinitionSet.eq_filtersOf_of_mem (group_mem_entries hsplit)]
  have hkeys := set.types.nodup_keys
  rw [← NameMap.map_values_eq_keys hset.types] at hkeys
  exact ((List.filter_sublist.trans List.filter_sublist).map _).nodup hkeys

/-- What a group merges is what it takes out, one name after the other. -/
theorem takeOut_groupNames (types : NameMap TypeDefinition) :
    (takeOut types (groupNames (base, members))).1
      = DefinitionSet.groupVariants types base members := by
  refine takeOut_eq_filterMap (List.nodup_cons.2 ⟨?_, (nodup_members hset hsplit).filter _⟩)
  simp

/-- A group with a variant puts the merged filter to what is left when its filters are out. -/
theorem mergeGroup_eq_takeOut (hvariant : ¬members.all (· == base) = true) :
    DefinitionSet.mergeGroup table types (base, members)
      = (mergeVariants table base (takeOut types (groupNames (base, members))).1).map fun merged =>
        (takeOut types (groupNames (base, members))).2.insert base merged := by
  have hmerge : DefinitionSet.mergeGroup table types (base, members)
      = (mergeVariants table base (DefinitionSet.groupVariants types base members)).map
        fun merged => ((members.foldl NameMap.erase types).erase base).insert base merged :=
    if_neg hvariant
  rw [hmerge, takeOut_groupNames hset hsplit]
  congr 1
  funext merged
  refine NameMap.ext_get? fun name => ?_
  rw [get?_insert_erased, NameMap.get?_insert, get?_takeOut]
  by_cases hbase : name = base
  · rw [if_pos hbase, if_pos hbase]
  · simp [groupNames, hbase]

variable (h : Reached set done types)
include h

theorem Reached.mem_of_member {name : String} (hname : name ∈ members) : name ∈ types := by
  have hfilter := ((mem_group_iff hset hsplit).1 hname).1
  have hplace := placeAfter_of_member hset hsplit hname
  exact h.taken.2 ⟨name, DefinitionSet.mem_types_of_hasFilter hfilter, hplace⟩

theorem Reached.map_name_groupVariants :
    (DefinitionSet.groupVariants types base members).map (·.name)
      = (if base ∈ types then [base] else []) ++ members.filter (· != base) := by
  have hmembers : (members.filter (· != base)).filter (· ∈ types)
      = members.filter (· != base) := by
    refine List.filter_eq_self.2 fun name hname => ?_
    exact decide_eq_true (h.mem_of_member hset hsplit (List.mem_filter.1 hname).1)
  unfold DefinitionSet.groupVariants
  rw [map_name_filterMap h.named, List.filter_cons, hmembers]
  by_cases hbase : base ∈ types <;> simp [hbase]

theorem Reached.one_le_length (hvariant : ∃ name ∈ members, name ≠ base) :
    1 ≤ (DefinitionSet.groupVariants types base members).length := by
  obtain ⟨name, hname, hne⟩ := hvariant
  have hothers : name ∈ members.filter (· != base) := List.mem_filter.2 ⟨hname, bne_iff_ne.2 hne⟩
  have hlength := congrArg List.length (h.map_name_groupVariants hset hsplit)
  rw [List.length_map, List.length_append] at hlength
  have hpos := List.length_pos_of_mem hothers
  omega

/-- What a group takes out, and the one filter that it puts back, keep the total. -/
theorem Reached.counts_mergeGroup {count total : Nat} (htotal : types.size + count = total) :
    Counts total (DefinitionSet.mergeGroup table types (base, members))
      (countGroup table (types, count) (base, members)) := by
  by_cases hall : members.all (· == base) = true
  · have hcount : countGroup table (types, count) (base, members) = .ok (types, count) :=
      if_pos hall
    rw [mergeGroup_of_all hall, hcount]
    exact counts_ok htotal
  · have hvariant : ∃ name ∈ members, name ≠ base := by simpa using hall
    have hsome := h.one_le_length hset hsplit hvariant
    rw [← takeOut_groupNames hset hsplit] at hsome
    have hlength := length_takeOut (groupNames (base, members)) types
    have hout : base ∉ (takeOut types (groupNames (base, members))).2 :=
      not_mem_takeOut List.mem_cons_self
    rw [mergeGroup_eq_takeOut hset hsplit hall, countGroup, if_neg hall]
    dsimp only
    -- from here on it only counts how much was taken out, and that the base was
    generalize takeOut types (groupNames (base, members)) = out at *
    rw [if_neg (Nat.not_lt.2 hsome)]
    cases mergeVariants table base out.1 with
    | error cause => exact counts_error total cause
    | ok merged =>
      refine counts_ok ?_
      rw [NameMap.size_insert hout]
      omega

omit hsplit in
theorem Reached.counts_run {count total : Nat}
    (hsplit : set.filterGroups.entries = done ++ rest) (htotal : types.size + count = total) :
    Counts total (rest.foldlM (DefinitionSet.mergeGroup table) types)
      (rest.foldlM (countGroup table) (types, count)) := by
  -- the induction is on the groups to come; `Reached` is what those behind have led to
  induction rest generalizing done types count with
  | nil => exact counts_ok htotal
  | cons group rest ih =>
    have hnow : Counts total (DefinitionSet.mergeGroup table types group)
        (countGroup table (types, count) group) := h.counts_mergeGroup hset hsplit htotal
    rw [List.foldlM_cons, List.foldlM_cons]
    cases hmerge : DefinitionSet.mergeGroup table types group with
    | error cause =>
      rw [hnow.error cause hmerge]
      exact counts_error total cause
    | ok next =>
      obtain ⟨more, hcount, hnext⟩ := hnow.ok next hmerge
      rw [hcount]
      exact ih (h.step hset hsplit hmerge) (by simpa using hsplit) hnext

end Turns

end Filters

namespace DefinitionSet

open Filters

variable {set : DefinitionSet}

/-- **Groups in their turn.** Take any set whose definitions are held under their own names, as in
every set that is built, accepted or not. When it is the turn of a group, all its members are among
the types, also where bases are variants themselves. So what the group takes out, one name after the
other, is its base, if that is there, and every other member: one filter at least if it has a
variant. Counting all but one of them therefore never goes below zero. It gives what merging gives,
and counts in the end how many types went. -/
theorem mergeGroups_present (hset : set.Keyed) :
    (∀ done base members rest types,
      set.filterGroups.entries = done ++ (base, members) :: rest →
      done.foldlM (mergeGroup (variantTable set.filterGroups)) set.types = .ok types →
        (∀ name ∈ members, name ∈ types) ∧
        (takeOut types (groupNames (base, members))).1 = groupVariants types base members ∧
        (groupVariants types base members).map (·.name)
          = (if base ∈ types then [base] else []) ++ members.filter (· != base) ∧
        ((∃ name ∈ members, name ≠ base) → 1 ≤ (groupVariants types base members).length)) ∧
    Counts set.types.size
      (set.filterGroups.entries.foldlM (mergeGroup (variantTable set.filterGroups)) set.types)
      (set.filterGroups.entries.foldlM (countGroup (variantTable set.filterGroups))
        (set.types, 0)) := by
  refine ⟨fun done base members rest types hsplit hreached => ?_, ?_⟩
  · have h := Reached.run hset hsplit hreached
    exact ⟨fun name hname => h.mem_of_member hset hsplit hname,
      takeOut_groupNames hset hsplit types, h.map_name_groupVariants hset hsplit,
      h.one_le_length hset hsplit⟩
  · exact (reached_nil hset).counts_run hset (List.nil_append _).symm (Nat.add_zero _)

/-- Filters of which two have bases that are variants themselves. One base is merged away before its
own turn and the other one after it. A model has a union inside a union and refers to a filter that
is not there. -/
def chainedFilters : DefinitionSet :=
  ⟨.ofList [
    ("NullNestedableZFilter", ⟨"NullNestedableZFilter", .input,
      [⟨"equals", .scalar .string, false, false⟩], none⟩),
    ("NullableZFilter", ⟨"NullableZFilter", .input,
      [⟨"not", .definition "NullNestedableZFilter", false, false⟩], none⟩),
    ("User", ⟨"User", .model, [⟨"name", .union [.scalar .int, .union [.definition "ZFilter"]],
      false, false⟩], none⟩),
    ("ZNullNestedableFilter", ⟨"ZNullNestedableFilter", .input,
      [⟨"in", .scalar .string, false, true⟩], none⟩),
    ("ZNullableFilter", ⟨"ZNullableFilter", .input, [], none⟩)], ∅⟩

/-- When it is the last turn, the base is gone and its variant is still there. -/
theorem mergeGroups_present_chainedFilters :
    chainedFilters.validate ≠ .ok () ∧ chainedFilters.Keyed ∧
    (∃ types, (chainedFilters.filterGroups.entries.take 2).foldlM
        (mergeGroup (variantTable chainedFilters.filterGroups)) chainedFilters.types = .ok types ∧
      "ZNullableFilter" ∉ types ∧ "ZNullNestedableFilter" ∈ types ∧
      (groupVariants types "ZNullableFilter" ["ZNullNestedableFilter"]).map (·.name)
        = ["ZNullNestedableFilter"]) ∧
    ∃ types, chainedFilters.filterGroups.entries.foldlM
        (countGroup (variantTable chainedFilters.filterGroups)) (chainedFilters.types, 0)
      = .ok (types, 2) := by
  have hbuilt : ofLists chainedFilters.types.values [] = .ok chainedFilters := by decide
  obtain ⟨hturns, hcounts⟩ := mergeGroups_present (keyed_ofLists hbuilt)
  refine ⟨by decide, keyed_ofLists hbuilt, ?_, ?_⟩
  · have hreached : ((chainedFilters.filterGroups.entries.take 2).foldlM (mergeGroup
        (variantTable chainedFilters.filterGroups)) chainedFilters.types).toOption.map
          (·.contains "ZNullableFilter") = some false := by decide +kernel
    have hsplit : chainedFilters.filterGroups.entries = chainedFilters.filterGroups.entries.take 2
        ++ [("ZNullableFilter", ["ZNullNestedableFilter"])] := by decide +kernel
    obtain ⟨types, htypes, hgone⟩ := Option.map_eq_some_iff.1 hreached
    have hok := Fallible.eq_ok_of_toOption htypes
    have hbase : "ZNullableFilter" ∉ types := Bool.eq_false_iff.1 hgone
    obtain ⟨hpresent, -, hnames, -⟩ := hturns _ _ _ _ types hsplit hok
    rw [if_neg hbase] at hnames
    exact ⟨types, hok, hbase, hpresent _ List.mem_cons_self, hnames⟩
  · have hleft : (chainedFilters.filterGroups.entries.foldlM (mergeGroup
        (variantTable chainedFilters.filterGroups)) chainedFilters.types).toOption.map (·.size)
          = some 3 := by decide +kernel
    obtain ⟨types, htypes, hsize⟩ := Option.map_eq_some_iff.1 hleft
    obtain ⟨count, hcounted, htotal⟩ := hcounts.ok types (Fallible.eq_ok_of_toOption htypes)
    have hbefore : chainedFilters.types.size = 5 := by decide
    obtain rfl : count = 2 := by omega
    exact ⟨types, hcounted⟩

end DefinitionSet

end SchemaLayout
