import Mathlib.Logic.Function.Iterate
import SchemaLayout.Output.Index
import SchemaLayout.Proofs.Names.Lookup

/-!
# Directories and their indexes

The directories found are those on the way up from some file (`mem_directories_iff`), whatever empty
segments there are in its path: the way up may end at a known directory because the known ones are
closed under parents, but for the one that is looked at next (`ClosedBut`).

Indexes are made deepest first. Those of the directories in a directory are made before its own, so
it re-exports all of them (`isIndexOf_of_get?`).
-/
namespace SchemaLayout.Index

/-! ## The way up -/

theorem parent_iterate_empty (count : Nat) : Path.parent^[count] "" = "" :=
  Function.iterate_fixed rfl count

/-- Parents of known directories are known, except that `next` may be missing. -/
def ClosedBut (known : NameSet) (next : String) : Prop :=
  ∀ directory ∈ known,
    Path.parent directory = "" ∨ Path.parent directory ∈ known ∨ Path.parent directory = next

/-- Known directories are closed under parents. -/
def Closed (known : NameSet) : Prop :=
  ∀ directory ∈ known, Path.parent directory = "" ∨ Path.parent directory ∈ known

theorem Closed.closedBut {known : NameSet} (h : Closed known) (next : String) :
    ClosedBut known next :=
  fun directory hknown => (h directory hknown).imp_right Or.inl

theorem ClosedBut.closed {known : NameSet} {next : String} (h : ClosedBut known next)
    (hnext : next = "" ∨ next ∈ known) : Closed known := by
  intro directory hknown
  rcases h directory hknown with hroot | hparent | heq
  · exact Or.inl hroot
  · exact Or.inr hparent
  · rw [heq]
    exact hnext

theorem ClosedBut.add {known : NameSet} {next : String} (h : ClosedBut known next) :
    ClosedBut (known.add next) (Path.parent next) := by
  intro directory hknown
  rcases NameSet.mem_add.1 hknown with rfl | hold
  · exact Or.inr (Or.inr rfl)
  · rcases h directory hold with hroot | hparent | heq
    · exact Or.inl hroot
    · exact Or.inr (Or.inl (NameSet.mem_add.2 (Or.inr hparent)))
    · exact Or.inr (Or.inl (NameSet.mem_add.2 (Or.inl heq)))

/-- All that a known directory is in is known. -/
theorem Closed.iterate {known : NameSet} (h : Closed known) {directory : String}
    (hknown : directory ∈ known) (count : Nat) :
    Path.parent^[count] directory = "" ∨ Path.parent^[count] directory ∈ known := by
  induction count with
  | zero => exact Or.inr hknown
  | succ count ih =>
    rw [Function.iterate_succ_apply']
    rcases ih with hroot | hin
    · exact Or.inl (by rw [hroot]; rfl)
    · exact h _ hin

theorem closed_addDirectories {known : NameSet} {directory : String}
    (h : ClosedBut known directory) : Closed (addDirectories known directory) := by
  induction known, directory using addDirectories.induct with
  | case1 known directory hstop =>
    rw [addDirectories, dif_pos hstop]
    exact h.closed hstop
  | case2 known directory hgo ih =>
    rw [addDirectories, dif_neg hgo]
    exact ih h.add

/-- A directory is added with all that it is in. -/
theorem mem_addDirectories_iff {known : NameSet} {directory other : String}
    (h : ClosedBut known directory) : other ∈ addDirectories known directory ↔
      other ∈ known ∨ other ≠ "" ∧ ∃ count, Path.parent^[count] directory = other := by
  induction known, directory using addDirectories.induct with
  | case1 known directory hstop =>
    rw [addDirectories, dif_pos hstop]
    refine (or_iff_left_of_imp ?_).symm
    rintro ⟨hne, count, rfl⟩
    rcases hstop with rfl | hknown
    · exact absurd (parent_iterate_empty count) hne
    · exact ((h.closed (Or.inr hknown)).iterate hknown count).resolve_left hne
  | case2 known directory hgo ih =>
    rw [addDirectories, dif_neg hgo, ih h.add, NameSet.mem_add]
    constructor
    · rintro ((rfl | hold) | ⟨hne, count, rfl⟩)
      · exact Or.inr ⟨(not_or.1 hgo).1, 0, rfl⟩
      · exact Or.inl hold
      · exact Or.inr ⟨hne, count + 1, rfl⟩
    · rintro (hold | ⟨hne, count, rfl⟩)
      · exact Or.inl (Or.inr hold)
      · cases count with
        | zero => exact Or.inl (Or.inl rfl)
        | succ count => exact Or.inr ⟨hne, count, rfl⟩

theorem foldl_addDirectories (paths : List String) {known : NameSet} (h : Closed known) :
    let found := paths.foldl (fun known path => addDirectories known (Path.parent path)) known
    Closed found ∧ ∀ directory, directory ∈ found ↔ directory ∈ known ∨
      directory ≠ "" ∧ ∃ path ∈ paths, ∃ count, Path.parent^[count + 1] path = directory := by
  induction paths generalizing known with
  | nil => exact ⟨h, fun directory => by simp⟩
  | cons path paths ih =>
    have hpending := h.closedBut (Path.parent path)
    obtain ⟨hclosed, hmem⟩ := ih (closed_addDirectories hpending)
    refine ⟨hclosed, fun directory => ?_⟩
    rw [List.foldl_cons, hmem, mem_addDirectories_iff hpending, or_assoc, ← and_or_left]
    simp only [List.exists_mem_cons_iff, Function.iterate_succ_apply]

variable {exports : NameMap NameSet} {indexName : String}

theorem closed_empty : Closed ∅ := fun directory h => absurd h (NameMap.not_mem_empty directory)

/-- The directories are all that files are in, the root left out. -/
theorem mem_directories_iff {directory : String} : directory ∈ directories exports ↔
    directory ≠ "" ∧ ∃ path ∈ exports, ∃ count, Path.parent^[count + 1] path = directory := by
  unfold directories
  rw [(foldl_addDirectories exports.keys closed_empty).2]
  simp only [NameMap.not_mem_empty, false_or, NameMap.mem_keys_iff]

theorem closed_directories : Closed (directories exports) :=
  (foldl_addDirectories exports.keys closed_empty).1

theorem ne_empty_of_mem_directories {directory : String} (h : directory ∈ directories exports) :
    directory ≠ "" :=
  (mem_directories_iff.1 h).1

theorem parent_mem_directories {path : String} (h : path ∈ exports) :
    Path.parent path = "" ∨ Path.parent path ∈ directories exports := by
  by_cases hroot : Path.parent path = ""
  · exact Or.inl hroot
  · exact Or.inr (mem_directories_iff.2 ⟨hroot, path, h, 0, rfl⟩)

/-! ## Deepest first -/

theorem depth_parent_lt {directory : String} (h : Path.parent directory ≠ "") :
    depth (Path.parent directory) < depth directory := by
  by_cases hslash : '/' ∈ directory.toList
  · obtain ⟨above, name, hname, rfl⟩ := Path.exists_below hslash
    rw [Path.parent_below hname]
    simp [depth, String.toList_append, List.count_append]
  · exact absurd (Path.parent_of_no_slash hslash) h

theorem mem_deepestFirst_iff {directories : List String} {directory : String} :
    directory ∈ deepestFirst directories ↔ directory ∈ directories :=
  List.mem_mergeSort

theorem pairwise_deepestFirst (directories : List String) :
    (deepestFirst directories).Pairwise fun a b => depth b ≤ depth a := by
  have htrans : ∀ a b c : String, decide (depth b ≤ depth a) = true →
      decide (depth c ≤ depth b) = true → decide (depth c ≤ depth a) = true := by
    intro a b c hab hbc
    exact decide_eq_true (Nat.le_trans (of_decide_eq_true hbc) (of_decide_eq_true hab))
  have htotal : ∀ a b : String,
      (decide (depth b ≤ depth a) || decide (depth a ≤ depth b)) = true := by
    intro a b
    rw [Bool.or_eq_true, decide_eq_true_eq, decide_eq_true_eq]
    exact Nat.le_total _ _
  exact (List.pairwise_mergeSort htrans htotal directories).imp fun h => of_decide_eq_true h

/-! ## What indexes re-export -/

theorem foldl_reExport (contents : List (String × NameSet)) (file : OutputFile) :
    let index := contents.foldl (fun file entry => file.reExport entry.1 entry.2) file
    index.path = file.path ∧ index.role = file.role ∧ ∀ target, target ∈ index.reExports ↔
      target ∈ file.reExports ∨ target ∈ contents.map Prod.fst := by
  induction contents generalizing file with
  | nil => simp
  | cons entry contents ih =>
    obtain ⟨hpath, hrole, hmem⟩ := ih (file.reExport entry.1 entry.2)
    refine ⟨hpath, hrole, fun target => ?_⟩
    rw [List.foldl_cons, hmem, OutputFile.reExport, NameMap.alter, NameMap.mem_insert,
      List.map_cons, List.mem_cons, or_assoc, or_left_comm]

@[simp] theorem path_ofContents (path : String) (contents : List (String × NameSet)) :
    (ofContents path contents).path = path :=
  (foldl_reExport contents _).1

@[simp] theorem isIndex_ofContents (path : String) (contents : List (String × NameSet)) :
    (ofContents path contents).isIndex = true := by
  unfold OutputFile.isIndex ofContents
  rw [(foldl_reExport contents _).2.1]
  rfl

theorem mem_reExports_ofContents {path target : String} {contents : List (String × NameSet)} :
    target ∈ (ofContents path contents).reExports ↔ target ∈ contents.map Prod.fst := by
  unfold ofContents
  rw [(foldl_reExport contents _).2.2]
  exact or_iff_right (NameMap.not_mem_empty target)

theorem mem_reExports_ofDirectory {indexes : NameMap OutputFile} {directory target : String} :
    target ∈ (ofDirectory exports indexName indexes directory).reExports ↔
      target ∈ exports ∧ Path.parent target = directory ∨
        ∃ child index, indexes.get? child = some index ∧ Path.parent child = directory ∧
          index.path = target := by
  have hfiles : target ∈ (exports.entries.filter fun entry =>
      Path.parent entry.1 == directory).map Prod.fst ↔
        target ∈ exports ∧ Path.parent target = directory := by
    rw [NameMap.mem_iff_get?]
    simp only [NameMap.get?_eq_some_iff, List.mem_map, List.mem_filter, beq_iff_eq, Prod.exists,
      exists_and_right, exists_eq_right]
  unfold ofDirectory
  rw [mem_reExports_ofContents, List.map_append, List.mem_append, hfiles]
  simp only [List.map_map, List.mem_map, List.mem_filter, beq_iff_eq, Function.comp_apply,
    Prod.exists, ← NameMap.get?_eq_some_iff, and_assoc]

/-! ## The index of each directory -/

/-- An index of a directory: it re-exports the files in it and the indexes of the directories in
it. -/
structure IsIndexOf (exports : NameMap NameSet) (indexName directory : String)
    (index : OutputFile) : Prop where
  path : index.path = Path.join directory indexName
  isIndex : index.isIndex = true
  targets : ∀ target, target ∈ index.reExports ↔
    target ∈ exports ∧ Path.parent target = directory ∨
      ∃ child ∈ directories exports, Path.parent child = directory ∧
        Path.join child indexName = target

/-- What is made is the index of its directory, when the indexes of all directories in it are
there. -/
theorem isIndexOf_ofDirectory {indexes : NameMap OutputFile} {directory : String}
    (hpath : ∀ {child index}, indexes.get? child = some index →
      index.path = Path.join child indexName)
    (hchildren : ∀ child, Path.parent child = directory →
      (child ∈ indexes ↔ child ∈ directories exports)) :
    IsIndexOf exports indexName directory (ofDirectory exports indexName indexes directory) where
  path := path_ofContents ..
  isIndex := isIndex_ofContents ..
  targets target := by
    rw [mem_reExports_ofDirectory]
    refine or_congr_right ⟨?_, ?_⟩
    · rintro ⟨child, index, hget, hparent, rfl⟩
      exact ⟨child, (hchildren child hparent).1 (NameMap.mem_of_get? hget), hparent,
        (hpath hget).symm⟩
    · rintro ⟨child, hchild, hparent, rfl⟩
      obtain ⟨index, hget⟩ := NameMap.mem_iff_get?.1 ((hchildren child hparent).2 hchild)
      exact ⟨child, index, hget, hparent, hpath hget⟩

/-- The indexes made for some directories. -/
structure Made (exports : NameMap NameSet) (indexName : String) (done : List String)
    (indexes : NameMap OutputFile) : Prop where
  mem_iff : ∀ {directory}, directory ∈ indexes ↔ directory ∈ done
  isIndexOf : ∀ {directory index}, indexes.get? directory = some index →
    IsIndexOf exports indexName directory index

/-- When its turn comes, a directory has the indexes of all directories in it: those are deeper, so
they are none of those still to come. -/
theorem Made.mem_iff_of_parent {done rest : List String} {directory : String}
    {indexes : NameMap OutputFile} (h : Made exports indexName done indexes)
    (hsplit : deepestFirst (directories exports).toList = done ++ directory :: rest)
    {child : String} (hparent : Path.parent child = directory) :
    child ∈ indexes ↔ child ∈ directories exports := by
  have hall : ∀ {other}, other ∈ directories exports ↔ other ∈ done ++ directory :: rest := by
    intro other
    rw [← hsplit, mem_deepestFirst_iff]
    exact NameMap.mem_keys_iff.symm
  have hne : directory ≠ "" := ne_empty_of_mem_directories (hall.2 (by simp))
  have hsorted := pairwise_deepestFirst (directories exports).toList
  rw [hsplit, List.pairwise_append, List.pairwise_cons] at hsorted
  have hdeeper : depth directory < depth child := by
    rw [← hparent]
    exact depth_parent_lt (hparent ▸ hne)
  rw [h.mem_iff, hall, List.mem_append, List.mem_cons]
  refine (or_iff_left ?_).symm
  rintro (rfl | hrest)
  · exact Nat.lt_irrefl _ hdeeper
  · exact Nat.not_le_of_lt hdeeper (hsorted.2.1.1 child hrest)

theorem Made.step {done rest : List String} {directory : String} {indexes : NameMap OutputFile}
    (h : Made exports indexName done indexes)
    (hsplit : deepestFirst (directories exports).toList = done ++ directory :: rest) :
    Made exports indexName (done ++ [directory])
      (addIndex exports indexName indexes directory) := by
  refine ⟨?_, ?_⟩
  · intro other
    rw [addIndex, NameMap.mem_insert, h.mem_iff, List.mem_append, List.mem_singleton, or_comm]
  · intro other index hget
    rw [addIndex, NameMap.get?_insert] at hget
    split at hget
    · rename_i heq
      cases hget
      rw [heq]
      exact isIndexOf_ofDirectory (fun hchild => (h.isIndexOf hchild).path)
        fun _ => h.mem_iff_of_parent hsplit
    · exact h.isIndexOf hget

theorem Made.run {done rest : List String} {indexes : NameMap OutputFile}
    (h : Made exports indexName done indexes)
    (hsplit : deepestFirst (directories exports).toList = done ++ rest) :
    Made exports indexName (deepestFirst (directories exports).toList)
      (rest.foldl (addIndex exports indexName) indexes) := by
  induction rest generalizing done indexes with
  | nil =>
    rw [hsplit, List.append_nil]
    exact h
  | cons directory rest ih =>
    exact ih (h.step hsplit) (by rw [hsplit, List.append_assoc]; rfl)

theorem made_nil : Made exports indexName [] ∅ := by
  refine ⟨fun {directory} => ?_, fun h => ?_⟩
  · simp [NameMap.not_mem_empty]
  · cases h

theorem made_ofDirectories : Made exports indexName (deepestFirst (directories exports).toList)
    (ofDirectories exports indexName) :=
  made_nil.run rfl

theorem mem_ofDirectories_iff {directory : String} :
    directory ∈ ofDirectories exports indexName ↔ directory ∈ directories exports := by
  rw [made_ofDirectories.mem_iff, mem_deepestFirst_iff]
  exact NameMap.mem_keys_iff

section Induction

variable {P : String → OutputFile → Prop}
  (hstep : ∀ {indexes directory},
    (∀ {child index}, indexes.get? child = some index → child ∈ directories exports ∧
      index.path = Path.join child indexName ∧ P child index) →
    (∀ {child}, Path.parent child = directory →
      (child ∈ indexes ↔ child ∈ directories exports)) →
    P directory (ofDirectory exports indexName indexes directory))
include hstep

theorem Made.induction {done rest : List String} {indexes : NameMap OutputFile}
    (h : Made exports indexName done indexes)
    (hsplit : deepestFirst (directories exports).toList = done ++ rest)
    (hdone : ∀ {directory index}, indexes.get? directory = some index → P directory index)
    {directory : String} {index : OutputFile}
    (hget : (rest.foldl (addIndex exports indexName) indexes).get? directory = some index) :
    P directory index := by
  induction rest generalizing done indexes with
  | nil => exact hdone hget
  | cons next rest ih =>
    refine ih (h.step hsplit) (by rw [hsplit, List.append_assoc]; rfl) (fun hnext => ?_) hget
    rw [addIndex, NameMap.get?_insert] at hnext
    split at hnext
    · rename_i heq
      cases hnext
      rw [heq]
      refine hstep (fun hchild => ?_) (h.mem_iff_of_parent hsplit)
      have hmem := List.mem_append_left (next :: rest) (h.mem_iff.1 (NameMap.mem_of_get? hchild))
      rw [← hsplit, mem_deepestFirst_iff] at hmem
      exact ⟨NameMap.mem_keys_iff.1 hmem, (h.isIndexOf hchild).path, hdone hchild⟩
    · exact hdone hnext

/-- What the index of each directory gets when the indexes of the directories in it have it, all
indexes have. -/
theorem ofDirectories_induction {directory : String} {index : OutputFile}
    (hget : (ofDirectories exports indexName).get? directory = some index) : P directory index :=
  made_nil.induction hstep rfl (fun hnone => by cases hnone) hget

end Induction

/-- The index made for a directory re-exports all that it should. -/
theorem isIndexOf_of_get? {directory : String} {index : OutputFile}
    (h : (ofDirectories exports indexName).get? directory = some index) :
    IsIndexOf exports indexName directory index :=
  made_ofDirectories.isIndexOf h

theorem isIndexOf_root : IsIndexOf exports indexName ""
    (ofDirectory exports indexName (ofDirectories exports indexName) "") :=
  isIndexOf_ofDirectory (fun h => (isIndexOf_of_get? h).path) fun _ _ => mem_ofDirectories_iff

end SchemaLayout.Index
