import SchemaLayout.Proofs.Output.Segments

/-!
# What is inside a directory

A path is inside the directories that it has on the way up (`isInside_iff_iterate`), the root among
them. Going down from a directory, it is directly there or inside one of the directories in it
(`isInside_iff`), and of those inside only one (`eq_of_isAbove`).

The directories that get indexes are those that files are inside, but for the root
(`Index.mem_directories_iff_isAbove`).
-/
namespace SchemaLayout

namespace Path

/-- The path is in the directory or in one inside it; everything is inside the root. -/
def IsInside (directory path : String) : Prop := directory = "" ∨ IsAbove directory path

theorem isInside_root (path : String) : IsInside "" path := Or.inl rfl

theorem isInside_iff_isAbove {directory path : String} (h : directory ≠ "") :
    IsInside directory path ↔ IsAbove directory path :=
  or_iff_right h

/-! ## The way up -/

theorem exists_iterate_parent_eq_empty (path : String) : ∃ count, parent^[count + 1] path = "" := by
  induction hlength : path.length using Nat.strongRecOn generalizing path with
  | ind length ih =>
    by_cases hroot : path = ""
    · exact ⟨0, by rw [hroot]; rfl⟩
    · obtain ⟨count, hcount⟩ := ih _ (hlength ▸ length_parent_lt hroot) (parent path) rfl
      exact ⟨count + 1, by rwa [Function.iterate_succ_apply]⟩

theorem IsAbove.exists_iterate_parent {directory path : String} (h : IsAbove directory path) :
    ∃ count, parent^[count + 1] path = directory := by
  induction hlength : path.length using Nat.strongRecOn generalizing path with
  | ind length ih =>
    by_cases hslash : '/' ∈ path.toList
    · obtain ⟨between, name, hname, rfl⟩ := exists_below hslash
      rcases (isAbove_below_iff hname).1 h with rfl | habove
      · exact ⟨0, parent_below hname⟩
      · have hlt : between.length < length := by
          rw [← hlength]
          simp only [String.length_append]
          have : ("/" : String).length = 1 := rfl
          omega
        obtain ⟨count, hcount⟩ := ih _ hlt habove rfl
        exact ⟨count + 1, by rwa [Function.iterate_succ_apply, parent_below hname]⟩
    · exact absurd h (not_isAbove_of_no_slash hslash)

theorem isInside_iff_iterate {directory path : String} :
    IsInside directory path ↔ ∃ count, parent^[count + 1] path = directory := by
  constructor
  · rintro (rfl | habove)
    · exact exists_iterate_parent_eq_empty path
    · exact habove.exists_iterate_parent
  · rintro ⟨count, rfl⟩
    by_cases hroot : parent^[count + 1] path = ""
    · exact Or.inl hroot
    · exact Or.inr (isAbove_iterate_parent count hroot)

/-! ## The way down -/

/-- What is inside a directory is directly there, or inside a directory that is. -/
theorem isInside_iff {directory path : String} : IsInside directory path ↔
    parent path = directory ∨
      ∃ child, child ≠ "" ∧ parent child = directory ∧ IsAbove child path := by
  constructor
  · rw [isInside_iff_iterate]
    rintro ⟨count, hcount⟩
    induction count with
    | zero => exact Or.inl hcount
    | succ count ih =>
      rw [Function.iterate_succ_apply'] at hcount
      by_cases hroot : parent^[count + 1] path = ""
      · -- above the root there is the root again
        refine ih ?_
        rw [hroot] at hcount ⊢
        exact hcount
      · exact Or.inr ⟨_, hroot, hcount, isAbove_iterate_parent count hroot⟩
  · rintro (rfl | ⟨child, -, rfl, hbelow⟩)
    · by_cases hroot : parent path = ""
      · exact Or.inl hroot
      · exact Or.inr (isAbove_parent hroot)
    · by_cases hroot : parent child = ""
      · exact Or.inl hroot
      · exact Or.inr ((isAbove_parent hroot).trans hbelow)

theorem length_iterate_parent_le (count : Nat) (path : String) :
    (parent^[count] path).length ≤ path.length := by
  induction count with
  | zero => exact Nat.le_refl _
  | succ count ih =>
    rw [Function.iterate_succ_apply']
    by_cases hroot : parent^[count] path = ""
    · rw [hroot]
      exact Nat.zero_le _
    · exact Nat.le_trans (Nat.le_of_lt (length_parent_lt hroot)) ih

/-- No way up leads from the parent of a directory to that directory. -/
theorem iterate_parent_ne {directory : String} (h : directory ≠ "") (count : Nat) :
    parent^[count] (parent directory) ≠ directory := by
  intro heq
  have hle := length_iterate_parent_le count (parent directory)
  rw [heq] at hle
  exact Nat.not_lt.2 hle (length_parent_lt h)

theorem not_isAbove_of_parent_eq {child path : String} (hchild : child ≠ "")
    (h : parent path = parent child) : ¬IsAbove child path := by
  intro habove
  obtain ⟨count, hcount⟩ := habove.exists_iterate_parent
  rw [Function.iterate_succ_apply, h] at hcount
  exact iterate_parent_ne hchild count hcount

/-- Of two directories in one directory, none is met behind the other on the way up. -/
theorem le_of_parent_eq {path a b : String} {i j : Nat} (ha : parent^[i + 1] path = a)
    (hb : parent^[j + 1] path = b) (hne : b ≠ "") (h : parent a = parent b) : j ≤ i := by
  by_contra hlt
  obtain ⟨k, hk⟩ := Nat.exists_eq_add_of_lt (Nat.not_le.1 hlt)
  have hsplit : j + 1 = k + 1 + (i + 1) := by omega
  rw [hsplit, Function.iterate_add_apply, ha, Function.iterate_succ_apply, h] at hb
  exact iterate_parent_ne hne k hb

/-- A path is inside one only of the directories in a directory. -/
theorem eq_of_isAbove {a b path : String} (ha : a ≠ "") (hb : b ≠ "") (h : parent a = parent b)
    (hap : IsAbove a path) (hbp : IsAbove b path) : a = b := by
  obtain ⟨i, hi⟩ := hap.exists_iterate_parent
  obtain ⟨j, hj⟩ := hbp.exists_iterate_parent
  have hij : i = j :=
    Nat.le_antisymm (le_of_parent_eq hj hi ha h.symm) (le_of_parent_eq hi hj hb h)
  rw [← hi, ← hj, hij]

/-! ## Names in a directory -/

theorem parent_join {directory name : String} (hname : '/' ∉ name.toList) :
    parent (join directory name) = directory := by
  unfold join
  split
  · rename_i hroot
    rw [hroot, parent_of_no_slash hname]
  · exact parent_below hname

theorem join_injective {name : String} (hname : '/' ∉ name.toList) :
    Function.Injective (join · name) := by
  intro a b h
  have hparent := congrArg parent h
  rwa [parent_join hname, parent_join hname] at hparent

end Path

/-- A directory that gets an index is one that a file is inside, other than the root. -/
theorem Index.mem_directories_iff_isAbove {exports : NameMap NameSet} {directory : String} :
    directory ∈ directories exports ↔
      directory ≠ "" ∧ ∃ path ∈ exports, Path.IsAbove directory path := by
  rw [mem_directories_iff]
  refine and_congr_right fun hne => exists_congr fun path => and_congr_right fun _ => ?_
  rw [← Path.isInside_iff_iterate, Path.isInside_iff_isAbove hne]

end SchemaLayout
