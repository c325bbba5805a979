import Mathlib.Data.List.Nodup
import Mathlib.Order.Basic
import SchemaLayout.Names.Set

/-!
# Looking names up in built maps

What `get?` finds in a map that was built from a list or erased from, and what that says of the keys
and values of the map.
-/
namespace SchemaLayout.NameMap

variable {α : Type u} {β : Type v}

/-! ## Keys and values -/

theorem pairwise_keys (m : NameMap α) : m.keys.Pairwise (· < ·) :=
  List.pairwise_map.2 m.ordered

theorem nodup_keys (m : NameMap α) : m.keys.Nodup :=
  m.pairwise_keys.imp (S := (· ≠ ·)) fun hlt heq => String.lt_irrefl _ (heq ▸ hlt)

theorem exists_least_of_pairwise {l : List String} (hl : l.Pairwise (· < ·)) {p : String → Prop}
    (h : ∃ name ∈ l, p name) : ∃ least ∈ l, p least ∧ ∀ name ∈ l, p name → least ≤ name := by
  induction l with
  | nil =>
    obtain ⟨name, hmem, -⟩ := h
    cases hmem
  | cons head rest ih =>
    obtain ⟨hhead, hrest⟩ := List.pairwise_cons.1 hl
    by_cases hp : p head
    · refine ⟨head, List.mem_cons_self, hp, fun name hmem _ => ?_⟩
      rcases List.mem_cons.1 hmem with rfl | hmem
      · exact String.le_refl _
      · exact String.not_lt.1 (String.lt_asymm (hhead name hmem))
    · have hne : ∀ {name}, p name → name ≠ head := fun hname e => hp (e ▸ hname)
      obtain ⟨name, hmem, hname⟩ := h
      obtain ⟨least, hleast, hpl, hle⟩ :=
        ih hrest ⟨name, (List.mem_cons.1 hmem).resolve_left (hne hname), hname⟩
      exact ⟨least, List.mem_cons_of_mem _ hleast, hpl, fun other hother hpo =>
        hle other ((List.mem_cons.1 hother).resolve_left (hne hpo)) hpo⟩

/-- Among the names of a map that have a property there is a smallest one. -/
theorem exists_least (m : NameMap α) {p : String → Prop} (h : ∃ name, name ∈ m ∧ p name) :
    ∃ least, least ∈ m ∧ p least ∧ ∀ name, name ∈ m → p name → least ≤ name := by
  simp only [← mem_keys_iff] at h ⊢
  exact exists_least_of_pairwise m.pairwise_keys h

theorem mem_of_get? {m : NameMap α} {name : String} {value : α} (h : m.get? name = some value) :
    name ∈ m :=
  mem_iff_get?.2 ⟨value, h⟩

theorem mem_values_iff {m : NameMap α} {value : α} :
    value ∈ m.values ↔ ∃ name, m.get? name = some value := by
  simp only [values, List.mem_map, get?_eq_some_iff]
  constructor
  · rintro ⟨⟨name, found⟩, hmem, rfl⟩
    exact ⟨name, hmem⟩
  · rintro ⟨name, hmem⟩
    exact ⟨(name, value), hmem, rfl⟩

/-- The names of a map are those of its values, where each value has the name that it is under. -/
theorem map_values_eq_keys {m : NameMap α} {name : α → String}
    (h : ∀ {key value}, m.get? key = some value → name value = key) :
    m.values.map name = m.keys := by
  unfold values keys
  rw [List.map_map]
  exact List.map_congr_left fun entry hentry => h (get?_eq_some_iff.2 hentry)

theorem not_mem_empty (name : String) : name ∉ (∅ : NameMap α) := by
  simp [mem_iff_get?]

theorem isEmpty_iff {m : NameMap α} : m.isEmpty = true ↔ m = ∅ := by
  unfold isEmpty
  rw [List.isEmpty_iff]
  constructor
  · intro h
    cases m
    cases h
    rfl
  · rintro rfl
    rfl

theorem isEmpty_iff_forall {m : NameMap α} : m.isEmpty = true ↔ ∀ name, name ∉ m := by
  rw [isEmpty_iff]
  constructor
  · rintro rfl name
    exact not_mem_empty name
  · intro h
    exact ext_get? fun name => by rw [get?_eq_none_iff.2 (h name), get?_empty]

/-! ## Maps built from lists -/

/-- No two entries of one name differ. -/
def Functional (l : List (String × α)) : Prop :=
  ∀ name value other, (name, value) ∈ l → (name, other) ∈ l → value = other

theorem get?_foldl_insert {l : List (String × α)} (hl : Functional l) (m : NameMap α)
    (name : String) (value : α) :
    (l.foldl (fun m e => m.insert e.1 e.2) m).get? name = some value ↔
      (name, value) ∈ l ∨ (name ∉ l.map Prod.fst ∧ m.get? name = some value) := by
  induction l generalizing m with
  | nil => simp
  | cons a l ih =>
    have hrest : Functional l := fun name value other h h' =>
      hl name value other (List.mem_cons_of_mem _ h) (List.mem_cons_of_mem _ h')
    obtain ⟨key, old⟩ := a
    rw [List.foldl_cons, ih hrest, get?_insert]
    by_cases hn : name = key
    · subst hn
      have hsame : ∀ other, (name, other) ∈ l → old = other := fun other h =>
        hl name old other List.mem_cons_self (List.mem_cons_of_mem _ h)
      simp only [if_true, Option.some.injEq, List.mem_cons, Prod.mk.injEq, true_and, List.map_cons,
        true_or, not_true_eq_false, false_and, or_false]
      constructor
      · rintro (h | ⟨-, h⟩)
        · exact Or.inr h
        · exact Or.inl h.symm
      · rintro (rfl | h)
        · by_cases hmem : name ∈ l.map Prod.fst
          · obtain ⟨⟨_, other⟩, hother, rfl⟩ := List.mem_map.1 hmem
            exact Or.inl (hsame other hother ▸ hother)
          · exact Or.inr ⟨hmem, rfl⟩
        · exact Or.inl h
    · simp [hn]

/-- What a built map holds was in the list. -/
theorem mem_of_get?_ofList {l : List (String × α)} {name : String} {value : α}
    (h : (ofList l).get? name = some value) : (name, value) ∈ l := by
  have hfold : ∀ m : NameMap α,
      (l.foldl (fun m e => m.insert e.1 e.2) m).get? name = some value →
        (name, value) ∈ l ∨ m.get? name = some value := by
    clear h
    induction l with
    | nil => exact fun m h => Or.inr h
    | cons entry l ih =>
      intro m h
      rcases ih _ h with hrest | hinsert
      · exact Or.inl (List.mem_cons_of_mem _ hrest)
      · rw [get?_insert] at hinsert
        split at hinsert
        · rename_i hname
          cases hinsert
          rw [hname]
          exact Or.inl List.mem_cons_self
        · exact Or.inr hinsert
  exact (hfold ∅ h).resolve_right fun hempty => by cases hempty

theorem get?_ofList {l : List (String × α)} (hl : Functional l) {name : String} {value : α} :
    (ofList l).get? name = some value ↔ (name, value) ∈ l := by
  unfold ofList
  simp [get?_foldl_insert hl]

/-- A map built from the pairs of a partial function is that function. -/
theorem get?_ofList_of_mem_iff {l : List (String × α)} {f : String → Option α}
    (h : ∀ name value, (name, value) ∈ l ↔ f name = some value) (name : String) :
    (ofList l).get? name = f name := by
  have hl : Functional l := by
    intro key value other hvalue hother
    have hsome : some value = some other :=
      ((h key value).1 hvalue).symm.trans ((h key other).1 hother)
    exact Option.some.inj hsome
  apply Option.ext
  intro value
  rw [get?_ofList hl, h]

/-- The values of a map under keys of their own, which tell the names of the map apart. -/
theorem get?_ofList_values {m : NameMap α} {key : α → String} {f : α → β}
    (hkey : ∀ {a b x y}, m.get? a = some x → m.get? b = some y → key x = key y → a = b)
    {name : String} {value : β} :
    (ofList (m.values.map fun x => (key x, f x))).get? name = some value ↔
      ∃ a x, m.get? a = some x ∧ key x = name ∧ f x = value := by
  have hmem : ∀ name value, (name, value) ∈ m.values.map (fun x => (key x, f x)) ↔
      ∃ a x, m.get? a = some x ∧ key x = name ∧ f x = value := by
    intro name value
    simp only [List.mem_map, mem_values_iff, Prod.mk.injEq]
    constructor
    · rintro ⟨x, ⟨a, hget⟩, hname, hvalue⟩
      exact ⟨a, x, hget, hname, hvalue⟩
    · rintro ⟨a, x, hget, hname, hvalue⟩
      exact ⟨x, ⟨a, hget⟩, hname, hvalue⟩
  rw [get?_ofList, hmem]
  intro name value other hv ho
  obtain ⟨a, x, hx, rfl, rfl⟩ := (hmem _ _).1 hv
  obtain ⟨b, y, hy, hxy, rfl⟩ := (hmem _ _).1 ho
  cases hkey hy hx hxy
  cases hx.symm.trans hy
  rfl

theorem mem_insert {m : NameMap α} {name key : String} {value : α} :
    name ∈ m.insert key value ↔ name = key ∨ name ∈ m := by
  simp only [mem_iff_get?, get?_insert]
  by_cases h : name = key <;> simp [h]

/-- Values that have the names they are under still do with one more such value. -/
theorem named_insert {m : NameMap α} {name : α → String}
    (h : ∀ {key value}, m.get? key = some value → name value = key) (added : α) {key : String}
    {value : α} (hget : (m.insert (name added) added).get? key = some value) :
    name value = key := by
  rw [get?_insert] at hget
  split at hget
  · rename_i hkey
    cases hget
    exact hkey.symm
  · exact h hget

theorem not_mem_of_mem_insert {m : NameMap α} {n : NameMap β}
    (h : ∀ {key}, key ∈ m → key ∉ n) {name key : String} {value : α} (hname : name ∉ n)
    (hkey : key ∈ m.insert name value) : key ∉ n := by
  rcases mem_insert.1 hkey with rfl | hold
  · exact hname
  · exact h hold

theorem mem_foldl_insert {l : List (String × α)} {m : NameMap α} {name : String} :
    name ∈ l.foldl (fun m e => m.insert e.1 e.2) m ↔ name ∈ m ∨ name ∈ l.map Prod.fst := by
  induction l generalizing m with
  | nil => simp
  | cons a l ih =>
    rw [List.foldl_cons, ih, mem_insert, List.map_cons, List.mem_cons, or_assoc, or_left_comm]

theorem mem_ofList {l : List (String × α)} {name : String} :
    name ∈ ofList l ↔ name ∈ l.map Prod.fst := by
  unfold ofList
  rw [mem_foldl_insert]
  simp [not_mem_empty]

/-! ## Erasing -/

theorem get?_foldl_erase (names : List String) (m : NameMap α) (name : String) :
    (names.foldl erase m).get? name = if name ∈ names then none else m.get? name := by
  induction names generalizing m with
  | nil => simp
  | cons other names ih =>
    rw [List.foldl_cons, ih, get?_erase]
    by_cases h : name = other
    · simp [h]
    · simp [h]

end SchemaLayout.NameMap
