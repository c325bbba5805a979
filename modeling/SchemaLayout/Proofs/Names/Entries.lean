import Mathlib.Data.List.Perm.Basic
import SchemaLayout.Proofs.Names.Lookup

/-!
# Entries in any order

Where no two entries have one name, neither looking a name up nor the map that is built depends on
the order in which the entries are listed.
-/
namespace SchemaLayout

namespace NameMap

variable {α : Type u} {l entries : List (String × α)} {m : NameMap α}

theorem functional_of_nodup (h : (l.map Prod.fst).Nodup) : Functional l := by
  intro name value other hvalue hother
  have heq := List.inj_on_of_nodup_map h hvalue hother rfl
  exact (Prod.mk.inj heq).2

theorem lookup_eq_some_iff_of_nodup (h : (l.map Prod.fst).Nodup) {name : String} {value : α} :
    l.lookup name = some value ↔ (name, value) ∈ l := by
  induction l with
  | nil => simp
  | cons entry l ih =>
    obtain ⟨other, found⟩ := entry
    obtain ⟨hout, hrest⟩ := List.nodup_cons.1 (show (other :: l.map Prod.fst).Nodup from h)
    rw [List.lookup_cons, List.mem_cons, Prod.mk.injEq]
    by_cases hname : name = other
    · subst hname
      have hnone : (name, value) ∉ l := fun hmem => hout (List.mem_map_of_mem hmem)
      simp [hnone, eq_comm]
    · have hne : (name == other) = false := beq_eq_false_iff_ne.2 hname
      simp [hne, hname, ih hrest]

theorem nodup_entries (m : NameMap α) : m.entries.Nodup :=
  m.nodup_keys.of_map _

theorem perm_ofList (h : (l.map Prod.fst).Nodup) : (ofList l).entries.Perm l := by
  refine (List.perm_ext_iff_of_nodup (nodup_entries _) (h.of_map _)).2 fun entry => ?_
  rw [← get?_eq_some_iff, get?_ofList (functional_of_nodup h)]

/-- The entries of a map, in whatever order, give the map. -/
theorem ofList_of_perm (h : l.Perm m.entries) : ofList l = m := by
  refine ext_get? fun name => ?_
  refine get?_ofList_of_mem_iff (fun key value => ?_) name
  rw [h.mem_iff, ← get?_eq_some_iff]

/-! ## Numbers of entries -/

section Sizes

variable {β : Type v} {γ : Type w}

theorem length_keys (m : NameMap α) : m.keys.length = m.size := by
  simp [keys, size]

theorem size_insert {name : String} {value : α} (h : name ∉ m) :
    (m.insert name value).size = m.size + 1 := by
  have hnodup : (name :: m.keys).Nodup :=
    List.nodup_cons.2 ⟨fun hmem => h (mem_keys_iff.1 hmem), m.nodup_keys⟩
  have hperm : (m.insert name value).keys.Perm (name :: m.keys) := by
    refine (List.perm_ext_iff_of_nodup (nodup_keys _) hnodup).2 fun other => ?_
    simp only [List.mem_cons, mem_keys_iff, mem_insert]
  simpa [length_keys] using hperm.length_eq

/-- Erasing a name takes away what is found under it and nothing else. -/
theorem size_erase (m : NameMap α) (name : String) :
    (m.get? name).toList.length + (m.erase name).size = m.size := by
  cases hget : m.get? name with
  | none =>
    have hsame : m.erase name = m := by
      refine ext_get? fun other => ?_
      rw [get?_erase]
      split
      · rename_i heq
        rw [heq, hget]
      · rfl
    rw [hsame]
    simp
  | some value =>
    have hout : name ∉ m.erase name := by
      rw [← get?_eq_none_iff, get?_erase, if_pos rfl]
    have hback : (m.erase name).insert name value = m := by
      refine ext_get? fun other => ?_
      rw [get?_insert, get?_erase]
      split
      · rename_i heq
        rw [heq, hget]
      · rfl
    have hsize : ((m.erase name).insert name value).size = _ := size_insert hout
    rw [hback] at hsize
    rw [Option.toList_some, List.length_singleton]
    omega

/-- A map whose names all come from names of another has no more entries. -/
theorem size_le_of_source {n : NameMap β} (place : String → String)
    (h : ∀ name, name ∈ m → ∃ old, old ∈ n ∧ place old = name) : m.size ≤ n.size := by
  have hsubset : m.keys ⊆ n.keys.map place := by
    intro name hname
    obtain ⟨old, hold, rfl⟩ := h name (mem_keys_iff.1 hname)
    exact List.mem_map_of_mem (mem_keys_iff.2 hold)
  have hlength := (List.subperm_of_subset m.nodup_keys hsubset).length_le
  simpa [length_keys] using hlength

/-- Two maps that share the names of a third among them share its number of entries. -/
theorem size_add_size {first : NameMap β} {second : NameMap γ}
    (h : ∀ name, name ∈ m ↔ name ∈ first ∨ name ∈ second)
    (hapart : ∀ name, name ∈ first → name ∉ second) : first.size + second.size = m.size := by
  have hnodup : (first.keys ++ second.keys).Nodup := by
    refine List.nodup_append.2 ⟨first.nodup_keys, second.nodup_keys, fun a ha b hb heq => ?_⟩
    exact hapart a (mem_keys_iff.1 ha) (mem_keys_iff.1 (heq ▸ hb))
  have hperm : (first.keys ++ second.keys).Perm m.keys := by
    refine (List.perm_ext_iff_of_nodup hnodup m.nodup_keys).2 fun name => ?_
    simp only [List.mem_append, mem_keys_iff, h]
  simpa [length_keys] using hperm.length_eq

end Sizes

/-! ## Values under new keys -/

section Keys

variable {β : Type v} {key : α → String} {f : α → β}

theorem perm_ofList_values
    (hkey : ∀ {a b x y}, m.get? a = some x → m.get? b = some y → key x = key y → a = b) :
    (ofList (m.values.map fun x => (key x, f x))).entries.Perm
      (m.values.map fun x => (key x, f x)) := by
  refine perm_ofList ?_
  rw [values, List.map_map, List.map_map]
  refine (nodup_entries m).map_on fun x hx y hy hxy => ?_
  have hname : x.1 = y.1 := hkey (get?_eq_some_iff.2 hx) (get?_eq_some_iff.2 hy) hxy
  have hvalue : some x.2 = some y.2 := by
    rw [← get?_eq_some_iff.2 hx, hname, get?_eq_some_iff.2 hy]
  exact Prod.ext hname (Option.some.inj hvalue)

theorem size_ofList_values
    (hkey : ∀ {a b x y}, m.get? a = some x → m.get? b = some y → key x = key y → a = b) :
    (ofList (m.values.map fun x => (key x, f x))).size = m.size := by
  refine (perm_ofList_values hkey).length_eq.trans ?_
  rw [values, List.length_map, List.length_map]
  rfl

theorem ofList_values {g : α → α}
    (hfixed : ∀ {name value}, m.get? name = some value → key value = name ∧ g value = value) :
    ofList (m.values.map fun value => (key value, g value)) = m := by
  refine ofList_of_perm (.of_eq ?_)
  rw [values, List.map_map]
  refine (List.map_congr_left fun entry hmem => ?_).trans (List.map_id _)
  obtain ⟨hname, hvalue⟩ := hfixed (get?_eq_some_iff.2 hmem)
  exact Prod.ext hname hvalue

/-- Values that are put under new keys and taken back give the map again. -/
theorem ofList_values_back {back : β → String} {g : β → α}
    (hkey : ∀ {a b x y}, m.get? a = some x → m.get? b = some y → key x = key y → a = b)
    (hback : ∀ {name value}, m.get? name = some value →
      back (f value) = name ∧ g (f value) = value) :
    ofList ((ofList (m.values.map fun x => (key x, f x))).values.map
      fun y => (back y, g y)) = m := by
  have hvalues : (ofList (m.values.map fun x => (key x, f x))).values.Perm (m.values.map f) := by
    have hperm := (perm_ofList_values (f := f) hkey).map Prod.snd
    rwa [List.map_map] at hperm
  refine ofList_of_perm ((hvalues.map _).trans (.of_eq ?_))
  rw [values, List.map_map, List.map_map]
  refine (List.map_congr_left fun entry hmem => ?_).trans (List.map_id _)
  obtain ⟨hname, hvalue⟩ := hback (get?_eq_some_iff.2 hmem)
  exact Prod.ext hname hvalue

end Keys

/-! ## Values whose names move

A map holds values that know their names. Each value goes to the place of its name, with what `f`
makes of it there. -/

section Places

variable {β : Type v} {name : α → String} {place : String → String} {f : String → α → β}
  (hnamed : ∀ {key value}, m.get? key = some value → name value = key)
include hnamed

theorem mem_ofList_placed {g : α → β} {key : String} :
    key ∈ ofList (m.values.map fun x => (place (name x), g x)) ↔
      ∃ old, old ∈ m ∧ place old = key := by
  have hkeys : (m.values.map fun x => (place (name x), g x)).map Prod.fst = m.keys.map place := by
    rw [← map_values_eq_keys hnamed, List.map_map, List.map_map]
    rfl
  simp only [mem_ofList, hkeys, List.mem_map, mem_keys_iff]

theorem place_name_inj (hplace : ∀ {a b}, a ∈ m → b ∈ m → place a = place b → a = b)
    {a b : String} {x y : α} (hx : m.get? a = some x) (hy : m.get? b = some y)
    (hxy : place (name x) = place (name y)) : a = b := by
  rw [hnamed hx, hnamed hy] at hxy
  exact hplace (mem_of_get? hx) (mem_of_get? hy) hxy

theorem get?_ofList_placed (hplace : ∀ {a b}, a ∈ m → b ∈ m → place a = place b → a = b)
    {key : String} {result : β} :
    (ofList (m.values.map fun x => (place (name x), f (place (name x)) x))).get? key = some result ↔
      ∃ old x, m.get? old = some x ∧ place old = key ∧ f key x = result := by
  rw [get?_ofList_values (place_name_inj hnamed hplace)]
  refine exists₂_congr fun old x => and_congr_right fun hget => ?_
  rw [hnamed hget]
  exact and_congr_right fun hkey => by rw [hkey]

theorem ofList_placed_self (hkept : ∀ {key}, key ∈ m → place key = key) {g : String → α → α}
    (hsame : ∀ {key value}, m.get? key = some value → g key value = value) :
    ofList (m.values.map fun x => (place (name x), g (place (name x)) x)) = m := by
  refine ofList_values fun {key value} hget => ?_
  rw [hnamed hget, hkept (mem_of_get? hget)]
  exact ⟨rfl, hsame hget⟩

/-- Names that are taken back to where they were give the map again, with what it held. -/
theorem ofList_placed_back {back : String → String} {nameBack : β → String} {g : String → β → α}
    (hname : ∀ key x, nameBack (f key x) = key) (hback : ∀ {key}, key ∈ m → back (place key) = key)
    (hsame : ∀ {key x}, m.get? key = some x → g key (f (place key) x) = x) :
    ofList ((ofList (m.values.map fun x => (place (name x), f (place (name x)) x))).values.map
      fun y => (back (nameBack y), g (back (nameBack y)) y)) = m := by
  have hplace : ∀ {a b}, a ∈ m → b ∈ m → place a = place b → a = b :=
    fun ha hb hab => by rw [← hback ha, hab, hback hb]
  refine ofList_values_back (place_name_inj hnamed hplace) fun {key x} hget => ?_
  rw [hname, hnamed hget, hback (mem_of_get? hget)]
  exact ⟨rfl, hsame hget⟩

end Places

end NameMap

namespace NameSet

theorem ext_mem {s t : NameSet} (h : ∀ name, name ∈ s ↔ name ∈ t) : s = t := by
  have hsome : ∀ {r : NameSet} {name value}, r.get? name = some value ↔ name ∈ r := by
    intro r name value
    rw [NameMap.mem_iff_get?]
    exact ⟨fun hget => ⟨value, hget⟩, fun hget => hget.elim fun _ hget => hget⟩
  exact NameMap.ext_get? fun name => Option.ext fun value => by rw [hsome, hsome, h]

theorem ofList_toList (s : NameSet) : ofList s.toList = s :=
  ext_mem fun name => by rw [mem_ofList, toList, NameMap.mem_keys_iff]

end NameSet

end SchemaLayout
