import Mathlib.Data.Finset.Card
import Mathlib.Data.List.Dedup

/-!
# Lists without their later repeats

`List.eraseDups` keeps the first of every group of equal elements. What is left of a mapped list
depends only on which elements the map makes equal (`eraseDups_map_congr`), and it has as many
elements as the list has different ones (`length_eraseDups`).
-/
namespace SchemaLayout.Distinct

variable {α : Type u} {β : Type v} {γ : Type w}

/-- Induction that follows `eraseDups`: below its first element, a list counts without it. -/
theorem eraseDups_induction [BEq α] {P : List α → Prop} (nil : P [])
    (cons : ∀ a l, P (l.filter fun b => !b == a) → P (a :: l)) (l : List α) : P l := by
  induction hlength : l.length using Nat.strongRecOn generalizing l with
  | ind length ih =>
    cases l with
    | nil => exact nil
    | cons a l =>
      have hshorter : (l.filter fun b => !b == a).length < length :=
        hlength ▸ Nat.lt_succ_of_le (List.length_filter_le _ _)
      exact cons a l (ih _ hshorter _ rfl)

theorem eraseDups_filter [BEq α] [LawfulBEq α] (p : α → Bool) (l : List α) :
    (l.filter p).eraseDups = l.eraseDups.filter p := by
  induction l using eraseDups_induction with
  | nil => rfl
  | cons a l ih =>
    by_cases ha : p a = true
    · rw [List.filter_cons_of_pos ha, List.eraseDups_cons, List.eraseDups_cons,
        List.filter_cons_of_pos ha, ← ih, List.filter_filter, List.filter_filter]
      simp only [Bool.and_comm]
    · have hskip : (l.filter fun b => !b == a).filter p = l.filter p := by
        rw [List.filter_filter]
        refine List.filter_congr fun b _ => ?_
        by_cases hb : b = a
        · simp [hb, ha]
        · simp [hb]
      rw [List.filter_cons_of_neg ha, List.eraseDups_cons, List.filter_cons_of_neg ha, ← ih, hskip]

theorem nodup_eraseDups [BEq α] [LawfulBEq α] (l : List α) : l.eraseDups.Nodup := by
  induction l using eraseDups_induction with
  | nil => simp
  | cons a l ih =>
    rw [List.eraseDups_cons, List.nodup_cons, List.mem_eraseDups]
    exact ⟨by simp, ih⟩

theorem eraseDups_eq_self_iff [BEq α] [LawfulBEq α] {l : List α} : l.eraseDups = l ↔ l.Nodup := by
  constructor
  · intro heq
    exact heq ▸ nodup_eraseDups l
  · intro hnodup
    induction l with
    | nil => rfl
    | cons a l ih =>
      obtain ⟨hout, hrest⟩ := List.nodup_cons.1 hnodup
      have hfilter : l.filter (fun b => !b == a) = l := by
        refine List.filter_eq_self.2 fun b hb => ?_
        have hne : b ≠ a := fun heq => hout (heq ▸ hb)
        simpa using hne
      rw [List.eraseDups_cons, hfilter, ih hrest]

theorem length_eraseDups [DecidableEq α] (l : List α) : l.eraseDups.length = l.toFinset.card := by
  rw [← List.toFinset_card_of_nodup (nodup_eraseDups l)]
  congr 1
  ext a
  simp

theorem eraseDups_map_eraseDups [BEq α] [LawfulBEq α] [BEq β] [LawfulBEq β] (f : α → β)
    (l : List α) : (l.eraseDups.map f).eraseDups = (l.map f).eraseDups := by
  induction l using eraseDups_induction with
  | nil => rfl
  | cons a l ih =>
    have hskip : ((l.filter fun b => !b == a).map f).filter (fun c => !c == f a)
        = (l.map f).filter (fun c => !c == f a) := by
      rw [List.filter_map, List.filter_map, List.filter_filter]
      refine congrArg _ (List.filter_congr fun b _ => ?_)
      by_cases hb : b = a
      · simp [hb]
      · simp [hb]
    rw [List.eraseDups_cons, List.map_cons, List.map_cons, List.eraseDups_cons, List.eraseDups_cons,
      eraseDups_filter, ih, ← eraseDups_filter, hskip]

theorem exists_factor [Nonempty γ] {f : α → β} {g : α → γ} {p : α → Prop}
    (hfg : ∀ a b, p a → p b → f a = f b → g a = g b) : ∃ k : β → γ, ∀ a, p a → g a = k (f a) := by
  classical
  refine ⟨fun b => if hb : ∃ a, p a ∧ f a = b then g hb.choose else Classical.ofNonempty, ?_⟩
  intro a ha
  have hb : ∃ a', p a' ∧ f a' = f a := ⟨a, ha, rfl⟩
  simp only [dif_pos hb]
  exact hfg a _ ha hb.choose_spec.1 hb.choose_spec.2.symm

/-- A map that makes more elements equal keeps lists equal whose repeats are dropped. -/
theorem eraseDups_map_congr [Nonempty γ] [BEq β] [LawfulBEq β] [BEq γ] [LawfulBEq γ] {f : α → β}
    {g : α → γ} {l r : List α} (hfg : ∀ a b, a ∈ l ++ r → b ∈ l ++ r → f a = f b → g a = g b)
    (h : (l.map f).eraseDups = (r.map f).eraseDups) :
    (l.map g).eraseDups = (r.map g).eraseDups := by
  obtain ⟨k, hk⟩ := exists_factor (p := (· ∈ l ++ r)) hfg
  have through : ∀ s : List α, (∀ a ∈ s, a ∈ l ++ r) → s.map g = (s.map f).map k := by
    intro s hs
    rw [List.map_map]
    exact List.map_congr_left fun a ha => hk a (hs a ha)
  rw [through l fun a ha => List.mem_append_left _ ha,
    through r fun a ha => List.mem_append_right _ ha, ← eraseDups_map_eraseDups k (l.map f), h,
    eraseDups_map_eraseDups]

/-- A map that makes more elements equal has no more values, and if it has as many, it makes no
more elements equal. -/
theorem card_image_of_coarser [DecidableEq β] [DecidableEq γ] [Nonempty γ] {f : α → β} {g : α → γ}
    {s : Finset α} (hfg : ∀ a b, a ∈ s → b ∈ s → f a = f b → g a = g b) :
    (s.image g).card ≤ (s.image f).card ∧ ((s.image g).card = (s.image f).card →
      ∀ a b, a ∈ s → b ∈ s → g a = g b → f a = f b) := by
  obtain ⟨k, hk⟩ := exists_factor (p := (· ∈ s)) hfg
  have himage : s.image g = (s.image f).image k := by
    rw [Finset.image_image]
    exact Finset.image_congr fun a ha => hk a ha
  rw [himage]
  refine ⟨Finset.card_image_le, fun hcard a b ha hb hab => ?_⟩
  rw [hk a ha, hk b hb] at hab
  exact Finset.card_image_iff.1 hcard (Finset.mem_image_of_mem f ha) (Finset.mem_image_of_mem f hb)
    hab

end SchemaLayout.Distinct
