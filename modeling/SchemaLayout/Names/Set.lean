import SchemaLayout.Names.Map

/-!
# Sets of names

A `NameSet` is a `NameMap` that carries no values; it lists its names in order and each once.
-/
namespace SchemaLayout

/-- A finite set of names, listed in the order of the names. -/
abbrev NameSet := NameMap Unit

namespace NameSet

/-- The set with one more name. -/
def add (s : NameSet) (name : String) : NameSet := s.insert name ()

/-- The names of a list, each once. -/
def ofList (names : List String) : NameSet := names.foldl add ∅

/-- The names, in order. -/
def toList (s : NameSet) : List String := s.keys

/-- The names of either set. -/
def union (s t : NameSet) : NameSet := t.toList.foldl add s

/-- The first name in order. -/
def first? (s : NameSet) : Option String := s.toList.head?

@[simp] theorem mem_add {s : NameSet} {name key : String} :
    key ∈ s.add name ↔ key = name ∨ key ∈ s := by
  simp only [NameMap.mem_iff_get?, add, NameMap.get?_insert]
  by_cases h : key = name <;> simp [h]

theorem mem_foldl_add {names : List String} {s : NameSet} {key : String} :
    key ∈ names.foldl add s ↔ key ∈ s ∨ key ∈ names := by
  induction names generalizing s with
  | nil => simp
  | cons name rest ih =>
    rw [List.foldl_cons, ih, mem_add, List.mem_cons, or_assoc, or_left_comm]

@[simp] theorem mem_ofList {names : List String} {key : String} :
    key ∈ ofList names ↔ key ∈ names := by
  rw [ofList, mem_foldl_add]
  have : key ∉ (∅ : NameSet) := by simp [NameMap.mem_iff_get?]
  simp [this]

@[simp] theorem mem_union {s t : NameSet} {key : String} :
    key ∈ s.union t ↔ key ∈ s ∨ key ∈ t := by
  rw [union, mem_foldl_add, toList, NameMap.mem_keys_iff]

end NameSet

end SchemaLayout
