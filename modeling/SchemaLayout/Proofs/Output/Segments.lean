import SchemaLayout.Output.Pattern
import SchemaLayout.Proofs.Output.Directories

/-!
# Plain paths and directory prefixes

A path is plain when each of its segments names a file or directory of its own (`IsPlain`), and
above another path when that one starts with it as a directory (`IsAbove`). What is above a path is
its parent or above that (`isAbove_below_iff`), so it has fewer segments, all of them segments of
the path.
-/
namespace SchemaLayout

namespace Path

/-- Every segment names a file or directory of its own. -/
def IsPlain (path : String) : Prop := ∀ part ∈ segments path, Pattern.isBadPart part = false

/-- A plain path of one segment. -/
def IsSegment (text : String) : Prop := '/' ∉ text.toList ∧ Pattern.isBadPart text = false

/-- `other` starts with `path` as a directory. -/
def IsAbove (path other : String) : Prop := ∃ rest, other = path ++ "/" ++ rest

instance (path : String) : Decidable (IsPlain path) := List.decidableBAll ..

instance (text : String) : Decidable (IsSegment text) := instDecidableAnd

/-! ## Segments -/

theorem segments_append (path rest : String) :
    segments (path ++ "/" ++ rest) = segments path ++ segments rest := by
  have hlist : (path ++ "/" ++ rest).toList = path.toList ++ '/' :: rest.toList := by
    simp [String.toList_append]
  unfold segments
  rw [hlist, List.splitOn_append_cons_self, List.map_append]

theorem segments_ne_nil (path : String) : segments path ≠ [] := by
  unfold segments
  rw [Ne, List.map_eq_nil_iff]
  exact List.splitOn_ne_nil '/' _

/-- No piece of a split has the character that was split on. -/
theorem not_mem_of_mem_splitOn {c : Char} {cs part : List Char} (h : part ∈ cs.splitOn c) :
    c ∉ part := by
  induction cs generalizing part with
  | nil =>
    rw [List.splitOn_nil, List.mem_singleton] at h
    rw [h]
    exact List.not_mem_nil
  | cons a cs ih =>
    obtain ⟨first, others, hsplit⟩ := List.exists_cons_of_ne_nil (List.splitOn_ne_nil c cs)
    rw [List.splitOn_cons_eq_if_modifyHead, hsplit] at h
    rw [hsplit] at ih
    split at h
    · rcases List.mem_cons.1 h with rfl | hold
      · exact List.not_mem_nil
      · exact ih hold
    · rename_i hne
      rcases List.mem_cons.1 h with rfl | hold
      · rw [List.mem_cons, not_or]
        exact ⟨fun heq => hne (beq_iff_eq.2 heq.symm), ih List.mem_cons_self⟩
      · exact ih (List.mem_cons_of_mem _ hold)

theorem not_mem_of_mem_segments {path part : String} (h : part ∈ segments path) :
    '/' ∉ part.toList := by
  obtain ⟨cs, hcs, rfl⟩ := List.mem_map.1 h
  rw [String.toList_ofList]
  exact not_mem_of_mem_splitOn hcs

theorem segments_ofSegments {parts : List String} (hne : parts ≠ [])
    (h : ∀ part ∈ parts, '/' ∉ part.toList) : segments (ofSegments parts) = parts := by
  have hsplit : (['/'].intercalate (parts.map String.toList)).splitOn '/' =
      parts.map String.toList := by
    refine List.splitOn_intercalate '/' (fun cs hcs => ?_) (by simpa using hne)
    obtain ⟨part, hpart, rfl⟩ := List.mem_map.1 hcs
    exact h part hpart
  have hlist : (ofSegments parts).toList = ['/'].intercalate (parts.map String.toList) := by
    rw [ofSegments, String.toList_intercalate]
    rfl
  unfold segments
  rw [hlist, hsplit, List.map_map]
  simp [Function.comp_def]

theorem getLastD_segments_suffix (path : String) :
    ((segments path).getLastD "").toList <:+ path.toList := by
  by_cases hslash : '/' ∈ path.toList
  · obtain ⟨directory, name, hname, rfl⟩ := exists_below hslash
    rw [segments_below hname, List.getLastD_concat, String.toList_append]
    exact List.suffix_append _ _
  · rw [segments_of_no_slash hslash]
    exact List.suffix_rfl

/-- The directory of a plain path is all but the last of its segments. -/
theorem IsPlain.directorySegments_parent {path : String} (h : IsPlain path) :
    directorySegments (parent path) = (segments path).dropLast := by
  by_cases hslash : '/' ∈ path.toList
  · obtain ⟨directory, name, hname, rfl⟩ := exists_below hslash
    have hne : directory ≠ "" := by
      rintro rfl
      have hbad := h "" (by rw [segments_below hname]; exact List.mem_cons_self)
      cases hbad
    rw [parent_below hname, directorySegments, if_neg hne, segments_below hname,
      List.dropLast_concat]
  · rw [parent_of_no_slash hslash, segments_of_no_slash hslash]
    rfl

theorem IsSegment.isPlain {text : String} (h : IsSegment text) : IsPlain text := by
  intro part hpart
  rw [segments_of_no_slash h.1, List.mem_singleton] at hpart
  rw [hpart]
  exact h.2

/-! ## Directory prefixes -/

theorem isAbove_below (directory name : String) : IsAbove directory (directory ++ "/" ++ name) :=
  ⟨name, rfl⟩

theorem IsAbove.trans {a b c : String} (hab : IsAbove a b) (hbc : IsAbove b c) : IsAbove a c := by
  obtain ⟨rest, rfl⟩ := hab
  obtain ⟨more, rfl⟩ := hbc
  exact ⟨rest ++ "/" ++ more, by simp only [String.append_assoc]⟩

theorem IsAbove.length_lt {path other : String} (h : IsAbove path other) :
    (segments path).length < (segments other).length := by
  obtain ⟨rest, rfl⟩ := h
  have hrest : 0 < (segments rest).length := List.length_pos_of_ne_nil (segments_ne_nil rest)
  rw [segments_append, List.length_append]
  omega

theorem IsAbove.isPlain {path other : String} (h : IsAbove path other) (hother : IsPlain other) :
    IsPlain path := by
  obtain ⟨rest, rfl⟩ := h
  intro part hpart
  refine hother part ?_
  rw [segments_append]
  exact List.mem_append_left _ hpart

theorem not_isAbove_of_no_slash {path name : String} (h : '/' ∉ name.toList) :
    ¬IsAbove path name := by
  rintro ⟨rest, rfl⟩
  exact h (by simp [String.toList_append])

/-- What is above a name in a directory is the directory or above it. -/
theorem isAbove_below_iff {path directory name : String} (h : '/' ∉ name.toList) :
    IsAbove path (directory ++ "/" ++ name) ↔ path = directory ∨ IsAbove path directory := by
  constructor
  · rintro ⟨rest, heq⟩
    have hparent : parent (path ++ "/" ++ rest) = directory := by rw [← heq, parent_below h]
    by_cases hslash : '/' ∈ rest.toList
    · obtain ⟨between, last, hlast, rfl⟩ := exists_below hslash
      rw [← String.append_assoc, ← String.append_assoc, parent_below hlast] at hparent
      exact Or.inr ⟨between, hparent.symm⟩
    · rw [parent_below hslash] at hparent
      exact Or.inl hparent
  · rintro (rfl | habove)
    · exact isAbove_below _ _
    · exact habove.trans (isAbove_below _ _)

theorem isAbove_parent {path : String} (h : parent path ≠ "") : IsAbove (parent path) path := by
  by_cases hslash : '/' ∈ path.toList
  · obtain ⟨directory, name, hname, rfl⟩ := exists_below hslash
    rw [parent_below hname]
    exact isAbove_below _ _
  · exact absurd (parent_of_no_slash hslash) h

/-- All that a path is in is above it, but for the root. -/
theorem isAbove_iterate_parent {path : String} (count : Nat) (h : parent^[count + 1] path ≠ "") :
    IsAbove (parent^[count + 1] path) path := by
  induction count generalizing path with
  | zero => exact isAbove_parent h
  | succ count ih =>
    rw [Function.iterate_succ_apply] at h ⊢
    have hparent : parent path ≠ "" := by
      intro hroot
      rw [hroot, Index.parent_iterate_empty] at h
      exact h rfl
    exact (ih h).trans (isAbove_parent hparent)

/-- What is above a name in a directory, which may be the root, is that directory or above it. -/
theorem isAbove_join {path directory name : String} (hname : '/' ∉ name.toList)
    (h : IsAbove path (join directory name)) :
    directory ≠ "" ∧ (path = directory ∨ IsAbove path directory) := by
  unfold join at h
  split at h
  · exact absurd h (not_isAbove_of_no_slash hname)
  · rename_i hne
    exact ⟨hne, (isAbove_below_iff hname).1 h⟩

theorem isPlain_join {directory name : String} (hname : IsSegment name)
    (h : directory = "" ∨ IsPlain directory) : IsPlain (join directory name) := by
  unfold join
  split
  · exact hname.isPlain
  · rename_i hne
    intro part hpart
    rw [segments_append] at hpart
    rcases List.mem_append.1 hpart with hin | hlast
    · exact h.resolve_left hne part hin
    · exact hname.isPlain part hlast

theorem suffix_join (directory name : String) : name.toList <:+ (join directory name).toList := by
  unfold join
  split
  · exact List.suffix_rfl
  · rw [String.toList_append]
    exact List.suffix_append _ _

end Path

end SchemaLayout
