import Mathlib.Data.List.TakeWhile
import SchemaLayout.Text.Affix
import SchemaLayout.Text.Kebab

/-!
# What a spelling is made of

A kebab-case spelling has lower-case forms of characters of the name in it, and hyphens
(`mem_kebab`); it keeps all characters that are no separators (`kebab_ne_empty`). No other character
becomes a slash or a dot in lower case (`eq_of_mem_lowerChar`), so the spelling of a word has
neither (`IsWord.not_mem_kebab`).
-/
namespace SchemaLayout.Text

/-! ## Lower-case forms -/

theorem le_of_mem_lowerings {entry : CodeRun × Int} (h : entry ∈ lowerings) :
    0x41 ≤ entry.1.first + entry.2 := by
  have hall : lowerings.all (fun entry => decide (0x41 ≤ entry.1.first + entry.2)) = true := by
    decide +kernel
  exact of_decide_eq_true (List.all_eq_true.1 hall entry h)

theorem le_of_toNat_ofNat_lt {code : Nat} (hpos : 0 < (Char.ofNat code).toNat)
    (hlt : (Char.ofNat code).toNat < 0x41) : code < 0x41 := by
  by_cases hvalid : code.isValidChar
  · have hcode : (Char.ofNat code).toNat = code := by
      rw [Char.ofNat, dif_pos hvalid]
      rfl
    rwa [hcode] at hlt
  · have hzero : (Char.ofNat code).toNat = 0 := by
      rw [Char.ofNat, dif_neg hvalid]
      rfl
    exact absurd hzero (Nat.ne_of_gt hpos)

/-- A character in front of the capital letters is the lower-case form of itself only. -/
theorem eq_of_mem_lowerChar {a c : Char} (h : c ∈ lowerChar a) (hpos : 0 < c.toNat)
    (hlt : c.toNat < 0x41) : a = c := by
  have hascii : ∀ code < 0x80, (Char.ofNat code).toLower.toNat < 0x41 →
      Char.ofNat code = (Char.ofNat code).toLower := by decide +kernel
  unfold lowerChar at h
  split at h
  · rename_i hcode
    rw [List.mem_singleton] at h
    subst h
    have hsame := hascii a.toNat hcode
    rw [Char.ofNat_toNat] at hsame
    exact hsame hlt
  · split at h
    · rcases List.mem_cons.1 h with rfl | hdot
      · exact absurd hlt (by decide)
      · rw [List.mem_singleton.1 hdot] at hlt
        exact absurd hlt (by decide)
    · split at h
      · rename_i hfound
        rw [List.mem_singleton] at h
        subst h
        have hcovers := List.find?_some hfound
        have hle := le_of_mem_lowerings (List.mem_of_find?_eq_some hfound)
        simp only [CodeRun.covers, Bool.and_eq_true, decide_eq_true_eq] at hcovers hle
        have hlow := le_of_toNat_ofNat_lt hpos hlt
        omega
      · exact (List.mem_singleton.1 h).symm

theorem lowerChar_ne_nil (c : Char) : lowerChar c ≠ [] := by
  unfold lowerChar
  split
  · exact List.cons_ne_nil _ _
  · split
    · exact List.cons_ne_nil _ _
    · split
      · exact List.cons_ne_nil _ _
      · exact List.cons_ne_nil _ _

/-- A hyphen is a separator, and no other character becomes one. -/
theorem hyphen_not_mem_lowerChar {c : Char} (h : isSeparator c = false) : '-' ∉ lowerChar c := by
  intro hmem
  rw [eq_of_mem_lowerChar hmem (by decide) (by decide)] at h
  cases h

/-! ## Spellings -/

theorem mem_closeWord {spelled : List Char} {c : Char} (h : c ∈ closeWord spelled) :
    c = '-' ∨ c ∈ spelled := by
  unfold closeWord at h
  split at h
  · exact Or.inr h
  · exact Or.inr h
  · exact List.mem_cons.1 h

theorem subset_closeWord (spelled : List Char) : spelled ⊆ closeWord spelled := by
  intro c h
  unfold closeWord
  split
  · exact h
  · exact h
  · exact List.mem_cons_of_mem _ h

theorem mem_spell {spelled : List Char} {previous? : Option Char} {rest : List Char} {c : Char}
    (h : c ∈ spell spelled previous? rest) :
    c ∈ spelled ∨ c = '-' ∨ ∃ a ∈ rest, c ∈ lowerChar a := by
  induction rest generalizing spelled previous? with
  | nil => exact Or.inl h
  | cons a rest ih =>
    have hlater : (∃ b ∈ rest, c ∈ lowerChar b) → ∃ b ∈ a :: rest, c ∈ lowerChar b :=
      fun ⟨b, hb, hc⟩ => ⟨b, List.mem_cons_of_mem _ hb, hc⟩
    rw [spell] at h
    split at h
    · rcases ih h with hclosed | hhyphen | hrest
      · exact (mem_closeWord hclosed).elim (fun hc => Or.inr (Or.inl hc)) Or.inl
      · exact Or.inr (Or.inl hhyphen)
      · exact Or.inr (Or.inr (hlater hrest))
    · rcases ih h with hspelled | hhyphen | hrest
      · rcases List.mem_append.1 hspelled with hlower | hopen
        · exact Or.inr (Or.inr ⟨a, List.mem_cons_self, List.mem_reverse.1 hlower⟩)
        · split at hopen
          · exact (mem_closeWord hopen).elim (fun hc => Or.inr (Or.inl hc)) Or.inl
          · exact Or.inl hopen
      · exact Or.inr (Or.inl hhyphen)
      · exact Or.inr (Or.inr (hlater hrest))

theorem subset_spell {spelled : List Char} (previous? : Option Char) (rest : List Char) :
    spelled ⊆ spell spelled previous? rest := by
  induction rest generalizing spelled previous? with
  | nil => exact List.Subset.refl _
  | cons a rest ih =>
    rw [spell]
    split
    · exact List.Subset.trans (subset_closeWord spelled) (ih _)
    · refine List.Subset.trans ?_ (ih _)
      refine List.subset_append_of_subset_right _ ?_
      split
      · exact subset_closeWord spelled
      · exact List.Subset.refl _

theorem mem_spell_of_mem {spelled : List Char} {previous? : Option Char} {rest : List Char}
    {a c : Char} (ha : a ∈ rest) (hseparator : isSeparator a = false) (hc : c ∈ lowerChar a) :
    c ∈ spell spelled previous? rest := by
  induction rest generalizing spelled previous? with
  | nil => cases ha
  | cons b rest ih =>
    rw [spell]
    rcases List.mem_cons.1 ha with rfl | hrest
    · rw [if_neg (by rw [hseparator]; exact Bool.false_ne_true)]
      exact subset_spell _ _ (List.mem_append_left _ (List.mem_reverse.2 hc))
    · split
      · exact ih hrest
      · exact ih hrest

theorem mem_kebab {name : String} {c : Char} (h : c ∈ (kebab name).toList) :
    c = '-' ∨ ∃ a ∈ name.toList, c ∈ lowerChar a := by
  rw [kebab, String.toList_ofList, List.mem_reverse] at h
  exact (mem_spell ((List.dropWhile_sublist _).subset h)).resolve_left List.not_mem_nil

/-- A character in front of the capital letters is in a spelling only if it is in the name. -/
theorem mem_of_mem_kebab {name : String} {c : Char} (h : c ∈ (kebab name).toList)
    (hpos : 0 < c.toNat) (hlt : c.toNat < 0x41) (hhyphen : c ≠ '-') : c ∈ name.toList := by
  obtain ⟨a, ha, hlower⟩ := (mem_kebab h).resolve_left hhyphen
  exact eq_of_mem_lowerChar hlower hpos hlt ▸ ha

/-- The spelling of a name is empty only when the name has nothing but separators. -/
theorem kebab_ne_empty {name : String} {a : Char} (ha : a ∈ name.toList)
    (hseparator : isSeparator a = false) : kebab name ≠ "" := by
  obtain ⟨c, hc⟩ := List.exists_mem_of_ne_nil _ (lowerChar_ne_nil a)
  intro hempty
  have hnil : (spell [] none name.toList).dropWhile (· == '-') = [] := by
    rw [kebab] at hempty
    simpa using congrArg String.toList hempty
  have hall := List.dropWhile_eq_nil_iff.1 hnil c (mem_spell_of_mem ha hseparator hc)
  exact hyphen_not_mem_lowerChar hseparator (beq_iff_eq.1 hall ▸ hc)

/-! ## Words -/

/-- A text without separators, slashes and dots, such as a name in PascalCase. -/
structure IsWord (text : String) : Prop where
  ne_empty : text ≠ ""
  letters : ∀ c ∈ text.toList, isSeparator c = false ∧ c ≠ '/' ∧ c ≠ '.'

theorem isWord_iff {text : String} : IsWord text ↔
    text ≠ "" ∧ (text.toList.all fun c => !isSeparator c && c != '/' && c != '.') = true := by
  simp only [List.all_eq_true, Bool.and_eq_true, Bool.not_eq_true', bne_iff_ne, and_assoc]
  exact ⟨fun h => ⟨h.ne_empty, h.letters⟩, fun h => ⟨h.1, h.2⟩⟩

instance (text : String) : Decidable (IsWord text) := decidable_of_iff _ isWord_iff.symm

namespace IsWord

variable {text : String} (h : IsWord text)
include h

theorem withoutSuffix (suffix : String) : IsWord (withoutSuffix text suffix) := by
  unfold Text.withoutSuffix
  split
  · rename_i c rest hdrop
    refine ⟨fun hempty => by simpa using congrArg String.toList hempty, fun a ha => ?_⟩
    rw [String.toList_ofList] at ha
    unfold dropSuffix? at hdrop
    split at hdrop
    · rw [Option.some.injEq] at hdrop
      rw [← hdrop] at ha
      exact h.letters a (List.mem_of_mem_take ha)
    · cases hdrop
  · exact h

theorem kebab_ne_empty : kebab text ≠ "" := by
  have hne : text.toList ≠ [] := fun hnil => h.ne_empty (String.toList_inj.1 hnil)
  obtain ⟨a, ha⟩ := List.exists_mem_of_ne_nil _ hne
  exact Text.kebab_ne_empty ha (h.letters a ha).1

/-- The spelling of a word has no slash and no dot. -/
theorem not_mem_kebab : '/' ∉ (kebab text).toList ∧ '.' ∉ (kebab text).toList := by
  constructor
  · intro hslash
    have hmem := mem_of_mem_kebab hslash (by decide) (by decide) (by decide)
    exact (h.letters _ hmem).2.1 rfl
  · intro hdot
    have hmem := mem_of_mem_kebab hdot (by decide) (by decide) (by decide)
    exact (h.letters _ hmem).2.2 rfl

end IsWord

end SchemaLayout.Text
