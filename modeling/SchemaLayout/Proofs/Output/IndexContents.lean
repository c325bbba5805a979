import SchemaLayout.Proofs.Names.Entries
import SchemaLayout.Proofs.Output.Inside

/-!
# What indexes list

An index re-exports the contents that it is made of: each target with its names, where no target
comes twice (`get?_reExports_ofContents`). The contents of a directory are the files in it and the
indexes of the directories in it. Those are made before (`ofDirectories_induction`), so each index
has the names of all files inside its directory, and lists every target with the names of that
target (`Lists`).
-/
namespace SchemaLayout

theorem NameSet.empty_union (names : NameSet) : (∅ : NameSet).union names = names :=
  ofList_toList names

namespace Index

variable {exports : NameMap NameSet} {indexName : String}

/-! ## Contents -/

theorem mem_exportedNames_foldl (contents : List (String × NameSet)) (file : OutputFile)
    {name : String} :
    name ∈ (contents.foldl (fun file entry => file.reExport entry.1 entry.2) file).exportedNames ↔
      name ∈ file.exportedNames ∨ ∃ entry ∈ contents, name ∈ entry.2 := by
  induction contents generalizing file with
  | nil => simp
  | cons entry contents ih =>
    rw [List.foldl_cons, ih, OutputFile.reExport, NameSet.mem_union, List.exists_mem_cons_iff,
      or_assoc]

theorem mem_exportedNames_ofContents {path name : String} {contents : List (String × NameSet)} :
    name ∈ (ofContents path contents).exportedNames ↔ ∃ entry ∈ contents, name ∈ entry.2 := by
  unfold ofContents
  rw [mem_exportedNames_foldl]
  exact or_iff_right (NameMap.not_mem_empty name)

theorem get?_reExports_foldl {contents : List (String × NameSet)}
    (hnodup : (contents.map Prod.fst).Nodup) {file : OutputFile}
    (hfresh : ∀ entry ∈ contents, file.reExports.get? entry.1 = none) {target : String}
    {names : NameSet} :
    (contents.foldl (fun file entry => file.reExport entry.1 entry.2) file).reExports.get? target
        = some names ↔ file.reExports.get? target = some names ∨ (target, names) ∈ contents := by
  induction contents generalizing file with
  | nil => simp
  | cons entry contents ih =>
    obtain ⟨hnew, hrest⟩ := List.nodup_cons.1 hnodup
    have hnone := hfresh entry List.mem_cons_self
    have hnext : ∀ key, (file.reExport entry.1 entry.2).reExports.get? key =
        if key = entry.1 then some entry.2 else file.reExports.get? key := by
      intro key
      rw [OutputFile.reExport, NameMap.alter, NameMap.get?_insert, hnone, Option.getD_none,
        NameSet.empty_union]
    have hlater : ∀ other ∈ contents,
        (file.reExport entry.1 entry.2).reExports.get? other.1 = none := by
      intro other hother
      have hne : other.1 ≠ entry.1 := fun heq => hnew (heq ▸ List.mem_map_of_mem hother)
      rw [hnext, if_neg hne]
      exact hfresh other (List.mem_cons_of_mem _ hother)
    rw [List.foldl_cons, ih hrest hlater, hnext, List.mem_cons, ← or_assoc]
    refine or_congr_left ?_
    by_cases heq : target = entry.1
    · rw [if_pos heq, heq, hnone]
      simp [Prod.ext_iff, eq_comm]
    · simp [heq, Prod.ext_iff]

/-- An index lists each target with its names, when no target comes twice. -/
theorem get?_reExports_ofContents {path : String} {contents : List (String × NameSet)}
    (hnodup : (contents.map Prod.fst).Nodup) {target : String} {names : NameSet} :
    (ofContents path contents).reExports.get? target = some names ↔ (target, names) ∈ contents := by
  unfold ofContents
  rw [get?_reExports_foldl hnodup fun _ _ => rfl]
  exact or_iff_right fun h => by cases h

/-- An index exports the names of its entries, when no target comes twice. -/
theorem mem_exportedNames_iff_reExports {path name : String} {contents : List (String × NameSet)}
    (hnodup : (contents.map Prod.fst).Nodup) : name ∈ (ofContents path contents).exportedNames ↔
      ∃ target names, (ofContents path contents).reExports.get? target = some names ∧
        name ∈ names := by
  rw [mem_exportedNames_ofContents]
  simp only [get?_reExports_ofContents hnodup, Prod.exists]

/-! ## The contents of a directory -/

/-- What the index of a directory is made of: the files that are directly there, then the indexes
of the directories there. -/
def contents (exports : NameMap NameSet) (indexes : NameMap OutputFile) (directory : String) :
    List (String × NameSet) :=
  exports.entries.filter (fun entry => Path.parent entry.1 == directory)
    ++ (indexes.entries.filter fun entry => Path.parent entry.1 == directory).map fun entry =>
      (entry.2.path, entry.2.exportedNames)

theorem ofDirectory_eq (indexes : NameMap OutputFile) (directory : String) :
    ofDirectory exports indexName indexes directory =
      ofContents (Path.join directory indexName) (contents exports indexes directory) :=
  rfl

theorem mem_contents_iff {indexes : NameMap OutputFile} {directory target : String}
    {names : NameSet} : (target, names) ∈ contents exports indexes directory ↔
      exports.get? target = some names ∧ Path.parent target = directory ∨
        ∃ child index, indexes.get? child = some index ∧ Path.parent child = directory ∧
          index.path = target ∧ index.exportedNames = names := by
  simp only [contents, List.mem_append, List.mem_map, List.mem_filter, beq_iff_eq, Prod.exists,
    Prod.mk.injEq, ← NameMap.get?_eq_some_iff, and_assoc]

/-- The names are those of all files inside the directory. -/
def NamesInside (exports : NameMap NameSet) (directory : String) (names : NameSet) : Prop :=
  ∀ name, name ∈ names ↔ ∃ path own, exports.get? path = some own ∧
    Path.IsInside directory path ∧ name ∈ own

theorem NamesInside.unique {directory : String} {names others : NameSet}
    (h : NamesInside exports directory names) (h' : NamesInside exports directory others) :
    names = others :=
  NameSet.ext_mem fun name => (h name).trans (h' name).symm

/-- What the index of a directory lists: with their names, the files that are directly there and the
indexes of the directories there. -/
structure Lists (exports : NameMap NameSet) (indexName directory : String) (index : OutputFile) :
    Prop where
  names : NamesInside exports directory index.exportedNames
  entries : ∀ target names, index.reExports.get? target = some names ↔
    exports.get? target = some names ∧ Path.parent target = directory ∨
      ∃ child ∈ directories exports, Path.parent child = directory ∧
        Path.join child indexName = target ∧ NamesInside exports child names
  listed : ∀ name, name ∈ index.exportedNames ↔
    ∃ target names, index.reExports.get? target = some names ∧ name ∈ names

/-- Indexes of directories that have the names of all files inside those. -/
def Named (exports : NameMap NameSet) (indexName : String) (indexes : NameMap OutputFile) : Prop :=
  ∀ {directory index}, indexes.get? directory = some index → directory ∈ directories exports ∧
    index.path = Path.join directory indexName ∧
      NamesInside exports directory index.exportedNames

section Directory

variable {indexes : NameMap OutputFile} {directory : String} (h : Named exports indexName indexes)
include h

/-- No target comes twice among the contents of a directory. -/
theorem nodup_contents (hname : '/' ∉ indexName.toList) :
    ((contents exports indexes directory).map Prod.fst).Nodup := by
  have hpath : ∀ entry ∈ indexes.entries, entry.2.path = Path.join entry.1 indexName :=
    fun entry hentry => (h (NameMap.get?_eq_some_iff.2 hentry)).2.1
  rw [contents, List.map_append, List.map_map, List.nodup_append]
  refine ⟨(List.filter_sublist.map _).nodup exports.nodup_keys, ?_, ?_⟩
  · refine List.Nodup.map_on (fun a ha b hb heq => ?_) (indexes.nodup_entries.filter _)
    have ha := List.mem_of_mem_filter ha
    have hb := List.mem_of_mem_filter hb
    have hjoin : Path.join a.1 indexName = Path.join b.1 indexName := by
      rw [← hpath a ha, ← hpath b hb]
      exact heq
    exact List.inj_on_of_nodup_map indexes.nodup_keys ha hb (Path.join_injective hname hjoin)
  · intro path hfile target htarget heq
    obtain ⟨file, hfilemem, rfl⟩ := List.mem_map.1 hfile
    obtain ⟨child, hchildmem, rfl⟩ := List.mem_map.1 htarget
    obtain ⟨hchild, hparent⟩ := List.mem_filter.1 hchildmem
    have hdirectory := (h (NameMap.get?_eq_some_iff.2 hchild)).1
    -- the index of a directory there is in that directory, and no directory is in itself
    refine Path.iterate_parent_ne (ne_empty_of_mem_directories hdirectory) 0 ?_
    calc Path.parent child.1 = directory := beq_iff_eq.1 hparent
      _ = Path.parent file.1 := (beq_iff_eq.1 (List.mem_filter.1 hfilemem).2).symm
      _ = Path.parent (Path.join child.1 indexName) := by rw [heq, ← hpath _ hchild]; rfl
      _ = child.1 := Path.parent_join hname

variable (hchildren : ∀ {child}, Path.parent child = directory →
  (child ∈ indexes ↔ child ∈ directories exports))
include hchildren

/-- The contents of a directory together have the names of all files inside it. -/
theorem namesInside_contents : ∀ name, (∃ entry ∈ contents exports indexes directory,
    name ∈ entry.2) ↔ ∃ path own, exports.get? path = some own ∧
      Path.IsInside directory path ∧ name ∈ own := by
  intro name
  simp only [Prod.exists, mem_contents_iff]
  constructor
  · rintro ⟨target, names, ⟨hget, hparent⟩ | ⟨child, index, hget, hparent, -, rfl⟩, hmem⟩
    · exact ⟨target, names, hget, Path.isInside_iff.2 (Or.inl hparent), hmem⟩
    · obtain ⟨hdirectory, -, hnames⟩ := h hget
      have hne := ne_empty_of_mem_directories hdirectory
      obtain ⟨path, own, hpath, hinside, hmem⟩ := (hnames name).1 hmem
      exact ⟨path, own, hpath, Path.isInside_iff.2
        (Or.inr ⟨child, hne, hparent, (Path.isInside_iff_isAbove hne).1 hinside⟩), hmem⟩
  · rintro ⟨path, own, hpath, hinside, hmem⟩
    rcases Path.isInside_iff.1 hinside with hparent | ⟨child, hne, hparent, habove⟩
    · exact ⟨path, own, Or.inl ⟨hpath, hparent⟩, hmem⟩
    · have hdirectory : child ∈ directories exports :=
        mem_directories_iff_isAbove.2 ⟨hne, path, NameMap.mem_of_get? hpath, habove⟩
      obtain ⟨index, hget⟩ := NameMap.mem_iff_get?.1 ((hchildren hparent).2 hdirectory)
      refine ⟨index.path, index.exportedNames, Or.inr ⟨child, index, hget, hparent, rfl, rfl⟩, ?_⟩
      exact ((h hget).2.2 name).2 ⟨path, own, hpath, Or.inr habove, hmem⟩

theorem lists_ofDirectory (hname : '/' ∉ indexName.toList) :
    Lists exports indexName directory (ofDirectory exports indexName indexes directory) where
  names name := by
    rw [ofDirectory_eq, mem_exportedNames_ofContents]
    exact namesInside_contents h hchildren name
  entries target names := by
    rw [ofDirectory_eq, get?_reExports_ofContents (nodup_contents h hname), mem_contents_iff]
    refine or_congr_right ⟨?_, ?_⟩
    · rintro ⟨child, index, hget, hparent, rfl, rfl⟩
      obtain ⟨hdirectory, hpath, hnames⟩ := h hget
      exact ⟨child, hdirectory, hparent, hpath.symm, hnames⟩
    · rintro ⟨child, hdirectory, hparent, rfl, hnames⟩
      obtain ⟨index, hget⟩ := NameMap.mem_iff_get?.1 ((hchildren hparent).2 hdirectory)
      exact ⟨child, index, hget, hparent, (h hget).2.1, (h hget).2.2.unique hnames⟩
  listed name := by
    rw [ofDirectory_eq]
    exact mem_exportedNames_iff_reExports (nodup_contents h hname)

end Directory

/-! ## All indexes -/

/-- The indexes that are made have the names of all files inside their directories. -/
theorem lists_of_get? (hname : '/' ∉ indexName.toList) {directory : String} {index : OutputFile}
    (hget : (ofDirectories exports indexName).get? directory = some index) :
    Lists exports indexName directory index := by
  refine ofDirectories_induction (P := Lists exports indexName) (fun hindexes hchildren => ?_) hget
  refine lists_ofDirectory (fun hchild => ?_) hchildren hname
  obtain ⟨hdirectory, hpath, hlists⟩ := hindexes hchild
  exact ⟨hdirectory, hpath, hlists.names⟩

theorem named_ofDirectories (hname : '/' ∉ indexName.toList) :
    Named exports indexName (ofDirectories exports indexName) :=
  fun hget => ⟨mem_ofDirectories_iff.1 (NameMap.mem_of_get? hget), (isIndexOf_of_get? hget).path,
    (lists_of_get? hname hget).names⟩

theorem lists_root (hname : '/' ∉ indexName.toList) : Lists exports indexName ""
    (ofDirectory exports indexName (ofDirectories exports indexName) "") :=
  lists_ofDirectory (named_ofDirectories hname) (fun _ => mem_ofDirectories_iff) hname

end Index

end SchemaLayout
