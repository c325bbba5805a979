import Mathlib.Order.Bounds.Basic
import SchemaLayout.Pass.AtomicOperations
import SchemaLayout.Proofs.Names.Entries
import SchemaLayout.Proofs.Schema.Validity

/-!
# What is pinned

An operations type stays when something that stays refers to it, and then keeps those that it refers
to itself. In a set that is accepted nothing is pinned; in others a reference can be left where no
leaf was replaced, as in a union inside a union.

Sets of names to which nothing else refers survive a round (`Unreferenced.subset_unpinned`) and so
the whole loop (`Unreferenced.subset_removableFrom`), and where the loop ends it leaves such a set.

**Result.** `stripAtomicOperations_greatest`: for any set, what stripping removes is the largest set
of operations types to which nothing else refers.
-/
namespace SchemaLayout

theorem TypeDefinition.any_refersTo_iff {definition : TypeDefinition} {name : String} :
    definition.fields.any (·.type.refersTo name) = true ↔ .definition name ∈ definition.leaves := by
  rw [← mem_definitionNames_iff, definitionNames, List.mem_flatMap, List.any_eq_true]
  simp only [TypeRef.refersTo, List.contains_iff_mem]

namespace AtomicOperations

variable {types : NameMap TypeDefinition} {removable : List String} {names : Set String}

/-- No definition of another name refers to one of the names. -/
def Unreferenced (types : NameMap TypeDefinition) (names : Set String) : Prop :=
  ∀ key definition, types.get? key = some definition → definition.name ∉ names →
    ∀ name ∈ names, definition.fields.any (·.type.refersTo name) = false

theorem isPinned_eq_false_iff {name : String} : isPinned types removable name = false ↔
    ∀ key definition, types.get? key = some definition → definition.name ∉ removable →
      definition.fields.any (·.type.refersTo name) = false := by
  have hkept : ∀ definition : TypeDefinition,
      (!removable.contains definition.name) = true ↔ definition.name ∉ removable := by
    intro definition
    rw [Bool.not_eq_true', ← Bool.not_eq_true, List.contains_iff_mem]
  simp only [isPinned, List.any_eq_false, Bool.and_eq_true, hkept, not_and, Bool.not_eq_true,
    NameMap.mem_values_iff, forall_exists_index]
  exact forall_comm

theorem unreferenced_iff : Unreferenced types {name | name ∈ removable} ↔
    ∀ name ∈ removable, isPinned types removable name = false := by
  simp only [isPinned_eq_false_iff]
  constructor
  · intro h name hname key definition hget hother
    exact h key definition hget hother name hname
  · intro h key definition hget hother name hname
    exact h name hname key definition hget hother

/-! ## Rounds -/

theorem unpinned_subset : unpinned types removable ⊆ removable :=
  fun _ hname => (List.mem_filter.1 hname).1

/-- A round keeps a set of names to which nothing else refers. -/
theorem Unreferenced.subset_unpinned (h : Unreferenced types names)
    (hsub : ∀ name ∈ names, name ∈ removable) :
    ∀ name ∈ names, name ∈ unpinned types removable := by
  intro name hname
  have hfree : isPinned types removable name = false :=
    isPinned_eq_false_iff.2 fun key definition hget hother =>
      h key definition hget (fun hin => hother (hsub _ hin)) name hname
  exact List.mem_filter.2 ⟨hsub name hname, by rw [hfree]; rfl⟩

/-- What every round keeps, the loop keeps. -/
theorem removableFrom_of_step {P : List String → Prop}
    (hstep : ∀ {removable}, P removable → P (unpinned types removable)) (h : P removable) :
    P (removableFrom types removable) := by
  induction removable using removableFrom.induct types with
  | case1 removable hless ih =>
    rw [removableFrom, if_pos hless]
    exact ih (hstep h)
  | case2 removable hfull =>
    rw [removableFrom, if_neg hfull]
    exact h

theorem Unreferenced.subset_removableFrom (h : Unreferenced types names)
    (hsub : ∀ name ∈ names, name ∈ removable) :
    ∀ name ∈ names, name ∈ removableFrom types removable :=
  removableFrom_of_step (P := fun left => ∀ name ∈ names, name ∈ left) h.subset_unpinned hsub

theorem removableFrom_subset : removableFrom types removable ⊆ removable :=
  removableFrom_of_step (P := fun left => left ⊆ removable)
    (fun hleft _ hname => hleft (unpinned_subset hname)) (List.Subset.refl _)

/-- Where the loop ends, none of the names that are left is pinned. -/
theorem isPinned_removableFrom (types : NameMap TypeDefinition) (removable : List String) :
    ∀ name ∈ removableFrom types removable,
      isPinned types (removableFrom types removable) name = false := by
  induction removable using removableFrom.induct types with
  | case1 removable hless ih =>
    rw [removableFrom, if_pos hless]
    exact ih
  | case2 removable hfull =>
    rw [removableFrom, if_neg hfull]
    intro name hname
    have hall := List.length_filter_eq_length_iff.1
      (le_antisymm (List.length_filter_le _ removable) (not_lt.1 hfull))
    simpa using hall name hname

/-- What the loop leaves is the largest set of names among the given ones to which nothing else
refers. -/
theorem isGreatest_removableFrom :
    IsGreatest {names | (∀ name ∈ names, name ∈ removable) ∧ Unreferenced types names}
      {name | name ∈ removableFrom types removable} := by
  refine ⟨⟨fun _ hname => removableFrom_subset hname, ?_⟩, ?_⟩
  · exact unreferenced_iff.2 (isPinned_removableFrom types removable)
  · rintro names ⟨hsub, hnames⟩
    exact hnames.subset_removableFrom hsub

/-- The names that are left after some rounds. -/
def afterRounds (types : NameMap TypeDefinition) (removable : List String) (rounds : Nat) :
    List String :=
  (unpinned types)^[rounds] removable

/-- One of the names is pinned, so the loop goes on. -/
def SomePinned (types : NameMap TypeDefinition) (removable : List String) : Prop :=
  ∃ name ∈ removable, isPinned types removable name = true

theorem not_somePinned_removableFrom : ¬SomePinned types (removableFrom types removable) := by
  rintro ⟨name, hname, hpinned⟩
  rw [isPinned_removableFrom types removable name hname] at hpinned
  cases hpinned

/-- The loop ends after no more rounds than there are names: until then one is pinned. -/
theorem exists_rounds (types : NameMap TypeDefinition) (removable : List String) :
    ∃ rounds ≤ removable.length,
      afterRounds types removable rounds = removableFrom types removable ∧
      ∀ earlier < rounds, SomePinned types (afterRounds types removable earlier) := by
  induction removable using removableFrom.induct types with
  | case1 removable hless ih =>
    obtain ⟨rounds, hle, hloop, hpinned⟩ := ih
    refine ⟨rounds + 1, by omega, ?_, fun earlier hearlier => ?_⟩
    · rw [removableFrom, if_pos hless]
      exact hloop
    cases earlier with
    | succ earlier => exact hpinned earlier (by omega)
    | zero =>
      obtain ⟨name, hname, hkept⟩ := List.length_filter_lt_length_iff_exists.1 hless
      have hpinned : isPinned types removable name = true := by simpa using hkept
      exact ⟨name, hname, hpinned⟩
  | case2 removable hfull =>
    refine ⟨0, Nat.zero_le _, ?_, fun earlier h => absurd h (Nat.not_lt_zero earlier)⟩
    rw [removableFrom, if_neg hfull]
    rfl

end AtomicOperations

namespace DefinitionSet

open AtomicOperations

variable {set : DefinitionSet}

/-! ## Stripped definitions -/

theorem get?_strippedTypes {name : String} {definition : TypeDefinition} :
    set.strippedTypes.get? name = some definition ↔ ∃ old, set.types.get? name = some old ∧
      (if set.atomicOperations.contains name then old
        else old.mapFields (stripField set.atomicOperations)) = definition := by
  unfold strippedTypes
  rw [NameMap.get?_mapValues, Option.map_eq_some_iff]

theorem mem_strippedTypes {name : String} : name ∈ set.strippedTypes ↔ name ∈ set.types := by
  simp only [NameMap.mem_iff_get?, get?_strippedTypes]
  constructor
  · rintro ⟨_, old, hget, -⟩
    exact ⟨old, hget⟩
  · rintro ⟨old, hget⟩
    exact ⟨_, old, hget, rfl⟩

theorem enums_stripAtomicOperations : set.stripAtomicOperations.enums = set.enums := by
  unfold stripAtomicOperations
  split <;> rfl

theorem exists_of_get?_stripAtomicOperations {name : String} {definition : TypeDefinition}
    (h : set.stripAtomicOperations.types.get? name = some definition) :
    ∃ old, set.types.get? name = some old ∧ definition.name = old.name := by
  unfold stripAtomicOperations at h
  split at h
  · exact ⟨definition, h, rfl⟩
  · rw [NameMap.get?_filter, Option.filter_eq_some_iff] at h
    obtain ⟨old, hold, rfl⟩ := get?_strippedTypes.1 h.1
    refine ⟨old, hold, ?_⟩
    split <;> rfl

theorem Keyed.stripAtomicOperations (h : set.Keyed) : set.stripAtomicOperations.Keyed where
  types hget := by
    obtain ⟨old, hold, hname⟩ := exists_of_get?_stripAtomicOperations hget
    exact hname.trans (h.types hold)
  enums hget := by
    rw [enums_stripAtomicOperations] at hget
    exact h.enums hget
  disjoint hmem := by
    obtain ⟨definition, hget⟩ := NameMap.mem_iff_get?.1 hmem
    obtain ⟨old, hold, -⟩ := exists_of_get?_stripAtomicOperations hget
    rw [enums_stripAtomicOperations]
    exact h.disjoint (NameMap.mem_of_get? hold)

/-! ## The operations types that go -/

/-- Operations types that can go: nothing else refers to one of them, once operations are replaced
in the fields of all other definitions. -/
structure Removable (set : DefinitionSet) (names : Set String) : Prop where
  operations : ∀ name ∈ names, ∃ definition ∈ set.types.values,
    definition.name = name ∧ definition.atomicSetField?.isSome = true
  unreferenced : ∀ key definition, set.strippedTypes.get? key = some definition →
    definition.name ∉ names → ∀ name ∈ names, definition.fields.any (·.type.refersTo name) = false

theorem mem_atomicOperations_iff {name : String} : name ∈ set.atomicOperations ↔
    ∃ definition ∈ set.types.values,
      definition.name = name ∧ definition.atomicSetField?.isSome = true := by
  simp only [atomicOperations, NameMap.mem_ofList, List.mem_map, List.mem_filterMap,
    Option.map_eq_some_iff, Option.isSome_iff_exists]
  constructor
  · rintro ⟨_, ⟨definition, hmem, field, hfield, rfl⟩, rfl⟩
    exact ⟨definition, hmem, rfl, field, hfield⟩
  · rintro ⟨definition, hmem, rfl, field, hfield⟩
    exact ⟨_, ⟨definition, hmem, field, hfield, rfl⟩, rfl⟩

theorem removable_iff {names : Set String} : set.Removable names ↔
    (∀ name ∈ names, name ∈ set.atomicOperations.keys) ∧ Unreferenced set.strippedTypes names := by
  simp only [NameMap.mem_keys_iff, mem_atomicOperations_iff]
  exact ⟨fun h => ⟨h.operations, h.unreferenced⟩, fun h => ⟨h.1, h.2⟩⟩

/-- The names of the operations types that stripping removes. -/
def strippedNames (set : DefinitionSet) : List String :=
  removableFrom set.strippedTypes set.atomicOperations.keys

theorem strippedNames_of_isEmpty (h : set.atomicOperations.isEmpty = true) :
    set.strippedNames = [] := by
  have hkeys : set.atomicOperations.keys = [] := by
    rw [NameMap.isEmpty_iff.1 h]
    rfl
  rw [strippedNames, hkeys]
  exact List.subset_nil.1 removableFrom_subset

theorem isGreatest_strippedNames :
    IsGreatest {names | set.Removable names} {name | name ∈ set.strippedNames} := by
  simp only [removable_iff]
  exact isGreatest_removableFrom

/-- What is left is what was there, less the removed names, in its stripped form if any name is an
operations type's. -/
theorem get?_stripAtomicOperations_eq_some_iff {name : String} {definition : TypeDefinition} :
    set.stripAtomicOperations.types.get? name = some definition ↔
      name ∉ set.strippedNames ∧ (if set.atomicOperations.isEmpty then set.types
        else set.strippedTypes).get? name = some definition := by
  unfold stripAtomicOperations
  cases hempty : set.atomicOperations.isEmpty with
  | true => simp [strippedNames_of_isEmpty hempty]
  | false =>
    rw [if_neg Bool.false_ne_true, if_neg Bool.false_ne_true, NameMap.get?_filter,
      Option.filter_eq_some_iff, Bool.not_eq_true', ← Bool.not_eq_true, List.contains_iff_mem,
      and_comm]
    rfl

theorem mem_stripAtomicOperations_iff {name : String} :
    name ∈ set.stripAtomicOperations.types ↔ name ∈ set.types ∧ name ∉ set.strippedNames := by
  simp only [NameMap.mem_iff_get?, get?_stripAtomicOperations_eq_some_iff, exists_and_left]
  rw [and_comm]
  refine and_congr_left fun _ => ?_
  split
  · rfl
  · simpa only [NameMap.mem_iff_get?] using mem_strippedTypes

/-- What is removed was there, where definitions are held under their own names. -/
theorem Keyed.mem_of_mem_strippedNames (hset : set.Keyed) {name : String}
    (hname : name ∈ set.strippedNames) : name ∈ set.types := by
  obtain ⟨definition, hmem, rfl, -⟩ := isGreatest_strippedNames.1.operations name hname
  obtain ⟨key, hget⟩ := NameMap.mem_values_iff.1 hmem
  rw [hset.types hget]
  exact NameMap.mem_of_get? hget

/-- Nothing that is left refers to what is removed, where definitions are held under their own
names. -/
theorem Keyed.any_refersTo_eq_false (hset : set.Keyed) {name target : String}
    {definition : TypeDefinition}
    (hget : set.stripAtomicOperations.types.get? name = some definition)
    (htarget : target ∈ set.strippedNames) :
    definition.fields.any (·.type.refersTo target) = false := by
  obtain ⟨hkept, hleft⟩ := get?_stripAtomicOperations_eq_some_iff.1 hget
  cases hempty : set.atomicOperations.isEmpty with
  | true =>
    rw [strippedNames_of_isEmpty hempty] at htarget
    cases htarget
  | false =>
    rw [hempty, if_neg Bool.false_ne_true] at hleft
    have hname : definition.name = name := hset.stripAtomicOperations.types hget
    exact isGreatest_strippedNames.1.unreferenced name definition hleft (hname ▸ hkept) target
      htarget

/-- **Greatest removal.** For any set, accepted or not, the loop of stripping ends after no more
rounds than there are operations types, when none of those left is pinned. They are the largest set
of operations types to which no other definition refers once operations are replaced, and they are
what the result lacks. Where definitions are held under their own names, as in every set that is
built, all of them were in the set, and nothing that is left refers to one of them. -/
theorem stripAtomicOperations_greatest (set : DefinitionSet) :
    (∃ rounds ≤ set.atomicOperations.size,
      afterRounds set.strippedTypes set.atomicOperations.keys rounds = set.strippedNames ∧
      (∀ earlier < rounds, SomePinned set.strippedTypes
        (afterRounds set.strippedTypes set.atomicOperations.keys earlier)) ∧
      ¬SomePinned set.strippedTypes set.strippedNames) ∧
    IsGreatest {names | set.Removable names} {name | name ∈ set.strippedNames} ∧
    (∀ name, name ∈ set.stripAtomicOperations.types ↔
      name ∈ set.types ∧ name ∉ set.strippedNames) ∧
    (set.Keyed → (∀ name ∈ set.strippedNames, name ∈ set.types) ∧
      ∀ name definition, set.stripAtomicOperations.types.get? name = some definition →
        ∀ target ∈ set.strippedNames,
          definition.fields.any (·.type.refersTo target) = false) := by
  refine ⟨?_, isGreatest_strippedNames, fun _ => mem_stripAtomicOperations_iff, fun hset => ?_⟩
  · obtain ⟨rounds, hrounds, hloop, hpinned⟩ :=
      exists_rounds set.strippedTypes set.atomicOperations.keys
    rw [NameMap.length_keys] at hrounds
    exact ⟨rounds, hrounds, hloop, hpinned, not_somePinned_removableFrom⟩
  · refine ⟨fun _ => hset.mem_of_mem_strippedNames, fun _ _ hget _ htarget => ?_⟩
    exact hset.any_refersTo_eq_false hget htarget

/-- Operations on whole numbers that take operations on rates, and are taken by a union inside a
union of a post that also refers to a missing author. -/
def pinnedOperations : DefinitionSet :=
  ⟨.ofList [
    ("CountOperations", ⟨"CountOperations", .input, [⟨"set", .scalar .int, false, false⟩,
      ⟨"increment", .definition "RateOperations", false, false⟩], none⟩),
    ("Post", ⟨"Post", .model, [
      ⟨"views", .union [.scalar .int, .union [.definition "CountOperations"]], false, false⟩,
      ⟨"author", .definition "Author", false, false⟩], none⟩),
    ("PriceOperations", ⟨"PriceOperations", .input, [⟨"set", .scalar .decimal, false, false⟩,
      ⟨"multiply", .scalar .decimal, false, false⟩], none⟩),
    ("RateOperations", ⟨"RateOperations", .input, [⟨"set", .scalar .float, false, false⟩,
      ⟨"divide", .scalar .float, false, false⟩], none⟩)], ∅⟩

/-- The first round keeps the operations on whole numbers, the second those on rates. -/
theorem stripAtomicOperations_greatest_pinnedOperations :
    pinnedOperations.validate ≠ .ok () ∧ pinnedOperations.Keyed ∧
      pinnedOperations.strippedNames = ["PriceOperations"] ∧
      IsGreatest {names | pinnedOperations.Removable names}
        {name | name ∈ pinnedOperations.strippedNames} ∧
      ∀ name definition,
        pinnedOperations.stripAtomicOperations.types.get? name = some definition →
          definition.fields.any (·.type.refersTo "PriceOperations") = false := by
  have hbuilt : ofLists pinnedOperations.types.values [] = .ok pinnedOperations := by decide
  have hnames : pinnedOperations.strippedNames = ["PriceOperations"] := by decide +kernel
  obtain ⟨-, hgreatest, -, hkeyed⟩ := stripAtomicOperations_greatest pinnedOperations
  refine ⟨by decide, keyed_ofLists hbuilt, hnames, hgreatest, fun name definition hget => ?_⟩
  refine (hkeyed (keyed_ofLists hbuilt)).2 name definition hget _ ?_
  rw [hnames]
  exact List.mem_singleton_self _

end DefinitionSet

end SchemaLayout
