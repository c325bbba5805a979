import SchemaLayout.Text.Affix

/-!
# Paths in the output (specification §4.6)

A path is a text whose `/`-separated segments name directories and, at the end, a file; the empty
text stands for the root directory. `specifier` is the relative form in which one file names
another.
-/
namespace SchemaLayout.Path

/-- The parts of a path between slashes; there is always at least one. -/
def segments (path : String) : List String :=
  (path.toList.splitOn '/').map String.ofList

/-- The path of the given segments. -/
def ofSegments (segments : List String) : String := "/".intercalate segments

/-- The directory of a file, or of a directory; the empty text at the root. -/
def parent (path : String) : String := ofSegments (segments path).dropLast

/-- The path of a name in a directory. -/
def join (directory name : String) : String :=
  if directory = "" then name else directory ++ "/" ++ name

/-- How many elements two lists have in common at their beginning. -/
def commonLength [DecidableEq α] : List α → List α → Nat
  | a :: as, b :: bs => if a = b then commonLength as bs + 1 else 0
  | _, _ => 0

/-- The path without the extension, where it ends in it. -/
def withoutExtension (path extension : String) : String :=
  match Text.dropSuffix? path.toList extension.toList with
  | some stem => String.ofList stem
  | none => path

/-- The segments of a directory; the root has none. -/
def directorySegments (directory : String) : List String :=
  if directory = "" then [] else segments directory

/-- How a file in the directory of `source` names `target`, whose extension is left out: up from
that directory as far as needed, then down to the target. -/
def specifier (extension source target : String) : String :=
  let origin := directorySegments (parent source)
  let goal := segments (withoutExtension target extension)
  let common := commonLength origin goal.dropLast
  let ups := origin.length - common
  (if ups = 0 then "./" else String.join (List.replicate ups "../"))
    ++ ofSegments (goal.drop common)

/-! ## Parents -/

theorem segments_of_no_slash {name : String} (h : '/' ∉ name.toList) : segments name = [name] := by
  unfold segments
  rw [List.splitOn_eq_singleton h, List.map_singleton, String.ofList_toList]

theorem segments_below {directory name : String} (h : '/' ∉ name.toList) :
    segments (directory ++ "/" ++ name) = segments directory ++ [name] := by
  have hlist : (directory ++ "/" ++ name).toList = directory.toList ++ '/' :: name.toList := by
    simp [String.toList_append]
  unfold segments
  rw [hlist, List.splitOn_append_cons_self, List.map_append, List.splitOn_eq_singleton h,
    List.map_singleton, String.ofList_toList]

theorem ofSegments_segments (path : String) : ofSegments (segments path) = path := by
  refine String.toList_inj.1 ?_
  simp only [ofSegments, segments, String.toList_intercalate, List.map_map, Function.comp_def,
    String.toList_ofList, List.map_id']
  exact List.intercalate_splitOn '/'

/-- A path with a slash is a name in a directory. -/
theorem exists_below {path : String} (h : '/' ∈ path.toList) :
    ∃ directory name, '/' ∉ name.toList ∧ path = directory ++ "/" ++ name := by
  obtain ⟨name, directory, hsplit, hname⟩ := List.eq_append_cons_of_mem (List.mem_reverse.2 h)
  refine ⟨String.ofList directory.reverse, String.ofList name.reverse, by simpa using hname, ?_⟩
  have hlist : path.toList = directory.reverse ++ '/' :: name.reverse := by
    rw [← List.reverse_reverse path.toList, hsplit]
    simp
  refine String.toList_inj.1 ?_
  simp [hlist, String.toList_append]

theorem parent_of_no_slash {name : String} (h : '/' ∉ name.toList) : parent name = "" := by
  unfold parent
  rw [segments_of_no_slash h]
  rfl

theorem parent_below {directory name : String} (h : '/' ∉ name.toList) :
    parent (directory ++ "/" ++ name) = directory := by
  unfold parent
  rw [segments_below h, List.dropLast_concat, ofSegments_segments]

theorem length_parent_lt {path : String} (h : path ≠ "") : (parent path).length < path.length := by
  by_cases hslash : '/' ∈ path.toList
  · obtain ⟨directory, name, hname, rfl⟩ := exists_below hslash
    rw [parent_below hname]
    simp only [String.length_append]
    have : ("/" : String).length = 1 := rfl
    omega
  · rw [parent_of_no_slash hslash]
    exact Nat.pos_of_ne_zero fun hzero => h (String.length_eq_zero_iff.1 hzero)

end SchemaLayout.Path
