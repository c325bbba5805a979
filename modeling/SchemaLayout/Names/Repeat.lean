/-!
# Repeats in lists

`firstRepeat?` finds the first element of a list that has the same key as an element in front of it.
-/
namespace SchemaLayout

variable {α : Type u} {κ : Type v} [DecidableEq κ]

/-- The first element of the list with the key of an element in front of it or of `seen` (nearest
first), behind that earlier element. -/
def firstRepeatAfter? (key : α → κ) (seen : List α) : List α → Option (α × α)
  | [] => none
  | a :: rest =>
    match seen.find? (fun b => key b == key a) with
    | some b => some (b, a)
    | none => firstRepeatAfter? key (a :: seen) rest

/-- The first element with the key of an element in front of it, behind that earlier element. -/
def firstRepeat? (key : α → κ) (list : List α) : Option (α × α) :=
  firstRepeatAfter? key [] list

theorem firstRepeatAfter?_eq_none_iff {key : α → κ} {seen list : List α} :
    firstRepeatAfter? key seen list = none ↔
      (list.map key).Nodup ∧ ∀ a ∈ list, ∀ b ∈ seen, key b ≠ key a := by
  induction list generalizing seen with
  | nil => simp [firstRepeatAfter?]
  | cons a rest ih =>
    simp only [firstRepeatAfter?]
    cases h : seen.find? (fun b => key b == key a) with
    | some b =>
      have hb := List.find?_some h
      have hm := List.mem_of_find?_eq_some h
      simp only [reduceCtorEq, false_iff, not_and]
      intro _ hall
      exact hall a List.mem_cons_self b hm (by simpa using hb)
    | none =>
      have hfree : ∀ b ∈ seen, key b ≠ key a := by simpa [List.find?_eq_none] using h
      rw [ih, List.map_cons, List.nodup_cons]
      constructor
      · rintro ⟨hnodup, hne⟩
        refine ⟨⟨fun hm => ?_, hnodup⟩, fun b hb => ?_⟩
        · obtain ⟨b, hb, hk⟩ := List.mem_map.1 hm
          exact hne b hb a List.mem_cons_self hk.symm
        · rcases List.mem_cons.1 hb with rfl | hb
          · exact hfree
          · exact fun c hc => hne b hb c (List.mem_cons_of_mem _ hc)
      · rintro ⟨⟨hnew, hnodup⟩, hne⟩
        refine ⟨hnodup, fun b hb c hc => ?_⟩
        rcases List.mem_cons.1 hc with rfl | hc
        · exact fun hk => hnew (List.mem_map.2 ⟨b, hb, hk.symm⟩)
        · exact hne b (List.mem_cons_of_mem _ hb) c hc

theorem firstRepeat?_eq_none_iff {key : α → κ} {list : List α} :
    firstRepeat? key list = none ↔ (list.map key).Nodup := by
  simp [firstRepeat?, firstRepeatAfter?_eq_none_iff]

end SchemaLayout
