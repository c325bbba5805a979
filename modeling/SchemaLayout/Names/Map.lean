/-!
# Maps keyed by name

A `NameMap` holds its entries in strictly increasing order of their names (by code point), so the
order of traversal is part of the value and two maps with the same content are equal. The view of a
map is `get?`: each operation has a lemma that says what it does to it, and `ext_get?` says that it
determines the map.
-/
namespace SchemaLayout

/-- A finite map from names to values, traversed in the order of the names. -/
structure NameMap (α : Type u) where
  entries : List (String × α)
  ordered : entries.Pairwise (fun a b => a.1 < b.1)

namespace NameMap

variable {α : Type u} {β : Type v}

instance [DecidableEq α] : DecidableEq (NameMap α) := fun a b =>
  if h : a.entries = b.entries then isTrue (by cases a; cases b; cases h; rfl)
  else isFalse (fun e => h (e ▸ rfl))

/-- The map without entries. -/
def empty : NameMap α := ⟨[], List.Pairwise.nil⟩

instance : EmptyCollection (NameMap α) := ⟨empty⟩

instance : Inhabited (NameMap α) := ⟨empty⟩

/-- The value under a name. -/
def get? (m : NameMap α) (name : String) : Option α :=
  m.entries.lookup name

/-- Whether the map has an entry of that name. -/
def contains (m : NameMap α) (name : String) : Bool :=
  m.entries.any (·.1 == name)

instance : Membership String (NameMap α) := ⟨fun m name => m.contains name = true⟩

instance (name : String) (m : NameMap α) : Decidable (name ∈ m) :=
  inferInstanceAs (Decidable (m.contains name = true))

/-- The names, in order. -/
def keys (m : NameMap α) : List String := m.entries.map (·.1)

/-- The values, in the order of their names. -/
def values (m : NameMap α) : List α := m.entries.map (·.2)

/-- How many entries there are. -/
def size (m : NameMap α) : Nat := m.entries.length

/-- Whether there are no entries. -/
def isEmpty (m : NameMap α) : Bool := m.entries.isEmpty

/-! ## Insertion and removal -/

/-- An ordered list of entries with one more; an entry of the same name is replaced. -/
def insertEntry (name : String) (value : α) : List (String × α) → List (String × α)
  | [] => [(name, value)]
  | (other, old) :: rest =>
    if name < other then (name, value) :: (other, old) :: rest
    else if name = other then (name, value) :: rest
    else (other, old) :: insertEntry name value rest

theorem mem_insertEntry {name : String} {value : α} {l : List (String × α)} {e : String × α}
    (h : e ∈ insertEntry name value l) : e = (name, value) ∨ e ∈ l := by
  induction l with
  | nil => exact Or.inl (by simpa [insertEntry] using h)
  | cons a rest ih =>
    obtain ⟨other, old⟩ := a
    simp only [insertEntry] at h
    split at h
    · simpa using h
    · split at h
      · rcases List.mem_cons.1 h with h | h
        · exact Or.inl h
        · exact Or.inr (List.mem_cons_of_mem _ h)
      · rcases List.mem_cons.1 h with h | h
        · exact Or.inr (h ▸ List.mem_cons_self)
        · exact (ih h).imp_right (List.mem_cons_of_mem _)

private theorem lt_of_not_lt_of_ne {a b : String} (h : ¬a < b) (hne : a ≠ b) : b < a :=
  Classical.byContradiction fun h' =>
    hne (String.le_antisymm (String.not_lt.1 h') (String.not_lt.1 h))

theorem pairwise_insertEntry (name : String) (value : α) {l : List (String × α)}
    (h : l.Pairwise (fun a b => a.1 < b.1)) :
    (insertEntry name value l).Pairwise (fun a b => a.1 < b.1) := by
  induction l with
  | nil => simp [insertEntry]
  | cons a rest ih =>
    obtain ⟨other, old⟩ := a
    obtain ⟨head, tail⟩ := List.pairwise_cons.1 h
    simp only [insertEntry]
    split
    · next hlt =>
      refine List.pairwise_cons.2 ⟨fun e he => ?_, h⟩
      rcases List.mem_cons.1 he with rfl | he
      · exact hlt
      · exact String.lt_trans hlt (head e he)
    · split
      · next _ heq => exact List.pairwise_cons.2 ⟨fun e he => heq ▸ head e he, tail⟩
      · next hlt hne =>
        refine List.pairwise_cons.2 ⟨fun e he => ?_, ih tail⟩
        rcases mem_insertEntry he with rfl | he
        · exact lt_of_not_lt_of_ne hlt hne
        · exact head e he

/-- The map with one more entry; an entry of the same name is replaced. -/
def insert (m : NameMap α) (name : String) (value : α) : NameMap α :=
  ⟨insertEntry name value m.entries, pairwise_insertEntry name value m.ordered⟩

/-- The entries whose name and value pass the test. -/
def filter (m : NameMap α) (keep : String → α → Bool) : NameMap α :=
  ⟨m.entries.filter (fun e => keep e.1 e.2), m.ordered.filter _⟩

/-- The map without the entry of that name. -/
def erase (m : NameMap α) (name : String) : NameMap α :=
  m.filter (fun other _ => other != name)

/-- The same names with new values. -/
def mapValues (m : NameMap α) (f : String → α → β) : NameMap β :=
  ⟨m.entries.map (fun e => (e.1, f e.1 e.2)), List.pairwise_map.2 m.ordered⟩

/-- The map of a list of entries; of two entries with one name the later counts. -/
def ofList (entries : List (String × α)) : NameMap α :=
  entries.foldl (fun m e => m.insert e.1 e.2) ∅

/-- The value under a name is replaced by what `f` makes of it. -/
def alter (m : NameMap α) (name : String) (f : Option α → α) : NameMap α :=
  m.insert name (f (m.get? name))

/-! ## The view `get?` -/

@[simp] theorem get?_empty (name : String) : (∅ : NameMap α).get? name = none := rfl

theorem lookup_insertEntry (name : String) (value : α) {l : List (String × α)}
    (h : l.Pairwise (fun a b => a.1 < b.1)) (key : String) :
    (insertEntry name value l).lookup key = if key = name then some value else l.lookup key := by
  induction l with
  | nil =>
    by_cases hk : key = name
    · simp [insertEntry, hk]
    · have : (key == name) = false := by simpa using hk
      simp [insertEntry, List.lookup_cons, hk, this]
  | cons a rest ih =>
    obtain ⟨other, old⟩ := a
    obtain ⟨head, tail⟩ := List.pairwise_cons.1 h
    simp only [insertEntry]
    split
    · by_cases hk : key = name
      · simp [hk]
      · have : (key == name) = false := by simpa using hk
        simp [List.lookup_cons, hk, this]
    · split
      · next _ heq =>
        subst heq
        by_cases hk : key = name
        · simp [hk]
        · have : (key == name) = false := by simpa using hk
          simp [List.lookup_cons, hk, this]
      · next hlt hne =>
        rw [List.lookup_cons, List.lookup_cons, ih tail]
        by_cases hko : key = other
        · simp [hko, Ne.symm hne]
        · have : (key == other) = false := by simpa using hko
          simp [this]

@[simp] theorem get?_insert (m : NameMap α) (name : String) (value : α) (key : String) :
    (m.insert name value).get? key = if key = name then some value else m.get? key :=
  lookup_insertEntry name value m.ordered key

theorem lookup_eq_some_iff {l : List (String × α)} (h : l.Pairwise (fun a b => a.1 < b.1))
    {name : String} {value : α} : l.lookup name = some value ↔ (name, value) ∈ l := by
  induction l with
  | nil => simp
  | cons a rest ih =>
    obtain ⟨other, old⟩ := a
    obtain ⟨head, tail⟩ := List.pairwise_cons.1 h
    rw [List.lookup_cons]
    by_cases hk : name = other
    · subst hk
      have hout : (name, value) ∉ rest := fun hm => String.lt_irrefl name (head (name, value) hm)
      simp [hout, eq_comm]
    · have : (name == other) = false := by simpa using hk
      simp [this, ih tail, hk]

/-- Looking a name up finds exactly the entries. -/
theorem get?_eq_some_iff {m : NameMap α} {name : String} {value : α} :
    m.get? name = some value ↔ (name, value) ∈ m.entries :=
  lookup_eq_some_iff m.ordered

theorem contains_eq_isSome (m : NameMap α) (name : String) :
    m.contains name = (m.get? name).isSome := by
  unfold contains get?
  induction m.entries with
  | nil => rfl
  | cons a rest ih =>
    rw [List.any_cons, List.lookup_cons, ih]
    by_cases h : name = a.1
    · simp [h]
    · have h1 : (name == a.1) = false := by simpa using h
      have h2 : (a.1 == name) = false := by simpa using Ne.symm h
      simp [h1, h2]

theorem mem_iff_get? {m : NameMap α} {name : String} :
    name ∈ m ↔ ∃ value, m.get? name = some value := by
  show m.contains name = true ↔ _
  rw [contains_eq_isSome, Option.isSome_iff_exists]

theorem mem_keys_iff {m : NameMap α} {name : String} : name ∈ m.keys ↔ name ∈ m := by
  rw [mem_iff_get?]
  simp [keys, get?_eq_some_iff]

theorem get?_eq_none_iff {m : NameMap α} {name : String} : m.get? name = none ↔ name ∉ m := by
  show _ ↔ ¬(m.contains name = true)
  rw [contains_eq_isSome]
  cases m.get? name <;> simp

theorem get?_filter (m : NameMap α) (keep : String → α → Bool) (name : String) :
    (m.filter keep).get? name = (m.get? name).filter (keep name) := by
  apply Option.ext
  intro value
  simp only [get?_eq_some_iff, filter, List.mem_filter, Option.filter_eq_some_iff]

@[simp] theorem get?_erase (m : NameMap α) (name key : String) :
    (m.erase name).get? key = if key = name then none else m.get? key := by
  unfold erase
  rw [get?_filter]
  by_cases h : key = name
  · simp only [h, bne_self_eq_false, if_true]
    cases m.get? name <;> rfl
  · have : (key != name) = true := by simpa using h
    rw [if_neg h]
    cases hm : m.get? key with
    | none => rfl
    | some value => simp [Option.filter, this]

@[simp] theorem get?_mapValues (m : NameMap α) (f : String → α → β) (name : String) :
    (m.mapValues f).get? name = (m.get? name).map (f name) := by
  apply Option.ext
  intro value
  simp only [get?_eq_some_iff, mapValues, List.mem_map, Option.map_eq_some_iff, Prod.mk.injEq]
  constructor
  · rintro ⟨⟨key, old⟩, he, rfl, rfl⟩
    exact ⟨old, he, rfl⟩
  · rintro ⟨old, he, rfl⟩
    exact ⟨(name, old), he, rfl, rfl⟩

theorem perm_mem_ext {l r : List (String × α)} (hl : l.Pairwise (fun a b => a.1 < b.1))
    (hr : r.Pairwise (fun a b => a.1 < b.1)) (h : ∀ e, e ∈ l ↔ e ∈ r) : l = r := by
  induction l generalizing r with
  | nil =>
    cases r with
    | nil => rfl
    | cons b _ => exact absurd ((h b).2 List.mem_cons_self) (by simp)
  | cons a rest ih =>
    cases r with
    | nil => exact absurd ((h a).1 List.mem_cons_self) (by simp)
    | cons b rest' =>
      obtain ⟨ha, hrest⟩ := List.pairwise_cons.1 hl
      obtain ⟨hb, hrest'⟩ := List.pairwise_cons.1 hr
      have hab : a = b := by
        rcases List.mem_cons.1 ((h a).1 List.mem_cons_self) with h1 | h1
        · exact h1
        · rcases List.mem_cons.1 ((h b).2 List.mem_cons_self) with h2 | h2
          · exact h2.symm
          · exact absurd (ha _ h2) (String.lt_asymm (hb _ h1))
      subst hab
      refine congrArg _ (ih hrest hrest' fun e => ?_)
      constructor
      · intro he
        rcases List.mem_cons.1 ((h e).1 (List.mem_cons_of_mem _ he)) with h1 | h1
        · exact absurd (h1 ▸ ha e he) (String.lt_irrefl _)
        · exact h1
      · intro he
        rcases List.mem_cons.1 ((h e).2 (List.mem_cons_of_mem _ he)) with h1 | h1
        · exact absurd (h1 ▸ hb e he) (String.lt_irrefl _)
        · exact h1

/-- A map is determined by what it holds under each name. -/
theorem ext_get? {m n : NameMap α} (h : ∀ name, m.get? name = n.get? name) : m = n := by
  have he : m.entries = n.entries := perm_mem_ext m.ordered n.ordered fun e => by
    rw [← get?_eq_some_iff, ← get?_eq_some_iff, h]
  cases m; cases n; cases he; rfl

end NameMap

end SchemaLayout
