import Mathlib.Data.List.Forall2
import SchemaLayout.Format.Decoding
import SchemaLayout.Proofs.Names.Entries

/-!
# Reading records

What is read from a record does not depend on the order of its entries. An `Arrangement` puts the
entries of every record in some order: in the one they are written in, or in that of their names
(`Value.canonical`). The lemmas here say what each part of a decoder makes of an arranged document;
those on whole decoders are put together from them.
-/
namespace SchemaLayout

/-- A way to order the entries of records. Nothing else changes, except for records that have a name
twice. -/
structure Arrangement where
  arrange : Value → Value
  text : ∀ s, arrange (.text s) = .text s
  flag : ∀ b, arrange (.flag b) = .flag b
  list : ∀ items, arrange (.list items) = .list (items.map arrange)
  record : ∀ {entries : List (String × Value)}, (entries.map Prod.fst).Nodup →
    ∃ written, arrange (.record entries) = .record written ∧
      written.Perm (entries.map fun entry => (entry.1, arrange entry.2))

/-! ## Arrangements -/

namespace Arrangement

/-- Entries stay in the order they are written in. -/
def asWritten : Arrangement where
  arrange := id
  text _ := rfl
  flag _ := rfl
  list items := by rw [List.map_id]; rfl
  record {entries} _ := ⟨entries, rfl, by simp⟩

theorem canonicalItems_eq_map : ∀ items, Value.canonicalItems items = items.map Value.canonical
  | [] => rfl
  | _ :: rest => by rw [Value.canonicalItems, canonicalItems_eq_map rest, List.map_cons]

theorem canonicalEntries_eq_map : ∀ entries : List (String × Value),
    Value.canonicalEntries entries = entries.map fun entry => (entry.1, entry.2.canonical)
  | [] => rfl
  | (_, _) :: rest => by rw [Value.canonicalEntries, canonicalEntries_eq_map rest, List.map_cons]

/-- Entries stand in the order of their names. -/
def byName : Arrangement where
  arrange := Value.canonical
  text _ := by simp [Value.canonical]
  flag _ := by simp [Value.canonical]
  list items := by rw [Value.canonical, canonicalItems_eq_map]
  record {entries} hnames := by
    refine ⟨_, by rw [Value.canonical], ?_⟩
    rw [canonicalEntries_eq_map]
    exact NameMap.perm_ofList (by rwa [List.map_map])

end Arrangement

/-! ## Entries -/

/-- The entries of a record as they are arranged, where no name stands twice. -/
structure Arranged (arrangement : Arrangement) (entries written : List (String × Value)) :
    Prop where
  names : (entries.map Prod.fst).Nodup
  perm : written.Perm (entries.map fun entry => (entry.1, arrangement.arrange entry.2))

namespace Arranged

open Decode

variable {α : Type} {arrangement : Arrangement} {entries written : List (String × Value)}

theorem nodup (h : Arranged arrangement entries written) : (written.map Prod.fst).Nodup := by
  rw [(h.perm.map Prod.fst).nodup_iff, List.map_map]
  exact h.names

theorem namesOnce (h : Arranged arrangement entries written) (names : List String) :
    Decode.namesOnce names written = true := by
  refine List.all_eq_true.2 fun name _ => decide_eq_true ?_
  have hcount := List.nodup_iff_count_le_one.1 h.nodup name
  rwa [List.count_eq_length_filter, List.filter_map, List.length_map] at hcount

/-- Each name has the value that it has in the record, arranged. -/
theorem lookup (h : Arranged arrangement entries written) (name : String) :
    written.lookup name = (entries.lookup name).map arrangement.arrange := by
  refine Option.ext fun value => ?_
  rw [NameMap.lookup_eq_some_iff_of_nodup h.nodup, h.perm.mem_iff, Option.map_eq_some_iff]
  simp only [NameMap.lookup_eq_some_iff_of_nodup h.names, List.mem_map, Prod.mk.injEq]
  constructor
  · rintro ⟨⟨_, old⟩, hmem, rfl, rfl⟩
    exact ⟨old, hmem, rfl⟩
  · rintro ⟨old, hmem, rfl⟩
    exact ⟨(name, old), hmem, rfl, rfl⟩

theorem fields (h : Arranged arrangement entries written) (dialect : Dialect)
    (names : List String) : Decode.fields dialect names (.record written) = some written :=
  if_pos (h.namesOnce names)

section Parts

variable {item : Value → Option α} {name : String} {value : Value}

theorem required (h : Arranged arrangement entries written)
    (hvalue : entries.lookup name = some value) :
    Decode.required written name item = item (arrangement.arrange value) := by
  rw [Decode.required, h.lookup, hvalue]
  rfl

theorem defaulted (h : Arranged arrangement entries written) {default : α}
    (hvalue : entries.lookup name = some value) :
    Decode.defaulted written name item default = item (arrangement.arrange value) := by
  rw [Decode.defaulted, h.lookup, hvalue]
  rfl

/-- An entry that is left out where its value is the default is read back. -/
theorem defaulted_omitted (h : Arranged arrangement entries written) {default a : α} {empty : Bool}
    (hvalue : entries.lookup name = if empty then none else some value)
    (hitem : item (arrangement.arrange value) = some a) (hempty : empty = true → a = default) :
    Decode.defaulted written name item default = some a := by
  rw [Decode.defaulted, h.lookup, hvalue]
  cases empty with
  | true => rw [hempty rfl]; rfl
  | false => exact hitem

theorem optional_text (h : Arranged arrangement entries written) {written? : Option String}
    (hvalue : entries.lookup name = written?.map .text) :
    Decode.optional written name Decode.text = some written? := by
  rw [Decode.optional, h.lookup, hvalue]
  cases written? with
  | none => rfl
  | some s =>
    rw [Option.map_some, Option.map_some, arrangement.text]
    rfl

end Parts

/-- Entries that are left out are left out of the arranged ones. -/
theorem filter (h : Arranged arrangement entries written) (keep : String → Bool) :
    Arranged arrangement (entries.filter (keep ·.1)) (written.filter (keep ·.1)) := by
  refine ⟨h.names.sublist (List.filter_sublist.map _), ?_⟩
  have hperm := h.perm.filter (keep ·.1)
  rwa [List.filter_map] at hperm

end Arranged

namespace Arrangement

open Decode

variable {α β : Type} (arrangement : Arrangement)

theorem exists_arranged {entries : List (String × Value)} (h : (entries.map Prod.fst).Nodup) :
    ∃ written, arrangement.arrange (.record entries) = .record written ∧
      Arranged arrangement entries written := by
  obtain ⟨written, hrecord, hperm⟩ := arrangement.record h
  exact ⟨written, hrecord, h, hperm⟩

/-! ## Simple values -/

theorem text_arrange (s : String) : Decode.text (arrangement.arrange (.text s)) = some s := by
  rw [arrangement.text]
  rfl

theorem flag_arrange (b : Bool) : Decode.flag (arrangement.arrange (.flag b)) = some b := by
  rw [arrangement.flag]
  rfl

theorem choice_arrange (dialect : Dialect) (choices : List (String × α)) (name : String) :
    choice dialect choices (arrangement.arrange (.text name)) = choices.lookup name := by
  rw [arrangement.text]
  rfl

/-! ## Lists and maps -/

theorem mapM_eq_some_of_forall₂ {f : α → Option β} {l : List α} {r : List β}
    (h : List.Forall₂ (fun a b => f a = some b) l r) : l.mapM f = some r := by
  induction h with
  | nil => rfl
  | cons hfirst _ ih =>
    rw [List.mapM_cons, hfirst, ih]
    rfl

variable {item : Value → Option α} {encode : α → Value}

/-- A list is read when its items are. -/
theorem list_arrange {items : List α}
    (h : ∀ a ∈ items, item (arrangement.arrange (encode a)) = some a) :
    Decode.list item (arrangement.arrange (.list (items.map encode))) = some items := by
  rw [arrangement.list, List.map_map]
  refine mapM_eq_some_of_forall₂ ?_
  rw [List.forall₂_map_left_iff, List.forall₂_same]
  exact h

/-- A map is read when its values are. -/
theorem nameMap_arrange {map : NameMap α}
    (h : ∀ a ∈ map.values, item (arrangement.arrange (encode a)) = some a) :
    Decode.nameMap item (arrangement.arrange (Encode.nameMap encode map)) = some map := by
  have hnames : ((map.entries.map fun entry => (entry.1, encode entry.2)).map Prod.fst).Nodup := by
    rw [List.map_map]
    exact map.nodup_keys
  obtain ⟨written, hrecord, harranged⟩ := arrangement.exists_arranged hnames
  have hread : List.Forall₂ (fun entry read => (item entry.2).map (entry.1, ·) = some read)
      ((map.entries.map fun entry => (entry.1, encode entry.2)).map fun entry =>
        (entry.1, arrangement.arrange entry.2)) map.entries := by
    rw [List.map_map, List.forall₂_map_left_iff, List.forall₂_same]
    intro entry hmem
    show (item (arrangement.arrange (encode entry.2))).map _ = some entry
    rw [h entry.2 (List.mem_map_of_mem hmem)]
    rfl
  obtain ⟨read, hread, hperm⟩ := List.perm_comp_forall₂ harranged.perm hread
  rw [Encode.nameMap, hrecord, Decode.nameMap, mapM_eq_some_of_forall₂ hread, Option.map_some,
    NameMap.ofList_of_perm hperm]

theorem nameSet_arrange (names : NameSet) :
    Decode.nameSet (arrangement.arrange (Encode.nameSet names)) = some names := by
  rw [Decode.nameSet, Encode.nameSet,
    list_arrange arrangement fun name _ => arrangement.text_arrange name, Option.map_some,
    NameSet.ofList_toList]

end Arrangement

end SchemaLayout
