import SchemaLayout.Proofs.Output.Arrangement
import SchemaLayout.Proofs.Output.IndexContents

/-!
# What planning adds

The indexes that a mode asks for have paths of their own (`nodup_paths_planned`), so planning fails
only where one of the given files has such a path (`foldlM_place_eq_error`).

`Completed` says what planning otherwise makes of the files: they stay and the requested indexes are
added, each with the names of all files inside its directory. An index exports what its entries
list, and an entry lists the names of its target. Names that no two files share no two entries
share, because a file is inside one only of the directories in a directory.

**Result.** `planIndexes_completed`: planning fails exactly when a requested path is taken, and what
it gives is complete.
-/
namespace SchemaLayout

/-- No name is among those of two values. -/
def NameMap.Apart {α : Type u} (names : α → NameSet) (m : NameMap α) : Prop :=
  ∀ ⦃a b x y⦄, m.get? a = some x → m.get? b = some y → a ≠ b →
    ∀ name ∈ names x, name ∉ names y

namespace Index

variable {exports : NameMap NameSet} {indexName : String} {mode : ReExportMode}

/-- Whether a mode asks for an index at the path: at the root, or in a directory that one of the
given files is inside. -/
def Requested (given : String → Prop) (mode : ReExportMode) (indexName path : String) : Prop :=
  mode.hasRootIndex = true ∧ path = indexName ∨
    mode.hasDirectoryIndexes = true ∧ ∃ directory, directory ≠ "" ∧
      (∃ file, given file ∧ Path.IsAbove directory file) ∧ path = directory ++ "/" ++ indexName

/-! ## Paths of indexes -/

theorem path_join {directory : String} (h : directory ≠ "") (name : String) :
    Path.join directory name = directory ++ "/" ++ name :=
  if_neg h

theorem indexed_of_isAbove {directory : String} (hmode : mode.hasDirectoryIndexes = true)
    (hne : directory ≠ "") (habove : ∃ path ∈ exports, Path.IsAbove directory path) :
    Indexed exports mode directory :=
  ⟨hmode, Or.inl (mem_directories_iff_isAbove.2 ⟨hne, habove⟩)⟩

theorem exists_planned_path_iff {path : String} :
    (∃ index ∈ planned exports indexName mode, index.path = path) ↔
      Requested (· ∈ exports) mode indexName path := by
  constructor
  · rintro ⟨index, hindex, rfl⟩
    rcases isIndexOf_of_planned hindex with ⟨rfl, rfl⟩ | ⟨directory, ⟨hmode, hdirectory⟩, hright⟩
    · exact Or.inl ⟨rfl, path_ofContents ..⟩
    rw [hright.path]
    rcases hdirectory with hmem | ⟨rfl, hroot⟩
    · obtain ⟨hne, habove⟩ := mem_directories_iff_isAbove.1 hmem
      exact Or.inr ⟨hmode, directory, hne, habove, path_join hne indexName⟩
    · exact Or.inl ⟨hroot, rfl⟩
  · rintro (⟨hmode, rfl⟩ | ⟨hmode, directory, hne, habove, rfl⟩)
    · cases mode with
      | none => cases hmode
      | directories => cases hmode
      | single => exact ⟨_, List.mem_singleton_self _, path_ofContents ..⟩
      | all =>
        have hroot : Indexed exports .all "" := ⟨rfl, Or.inr ⟨rfl, rfl⟩⟩
        obtain ⟨index, hindex, hright⟩ : ∃ index ∈ planned exports path .all,
          IsIndexOf exports path "" index := exists_planned hroot
        exact ⟨index, hindex, hright.path⟩
    · have hindexed := indexed_of_isAbove hmode hne habove
      obtain ⟨index, hindex, hright⟩ : ∃ index ∈ planned exports indexName mode,
        IsIndexOf exports indexName directory index := exists_planned hindexed
      exact ⟨index, hindex, hright.path.trans (path_join hne indexName)⟩

theorem paths_ofDirectories : (ofDirectories exports indexName).values.map (·.path) =
    (ofDirectories exports indexName).keys.map (Path.join · indexName) := by
  unfold NameMap.values NameMap.keys
  rw [List.map_map, List.map_map]
  refine List.map_congr_left fun entry hentry => ?_
  exact (isIndexOf_of_get? (NameMap.get?_eq_some_iff.2 hentry)).path

/-- No two planned indexes have one path. -/
theorem nodup_paths_planned (hname : '/' ∉ indexName.toList) :
    ((planned exports indexName mode).map (·.path)).Nodup := by
  have hinjective := Path.join_injective hname
  have hkeys := (ofDirectories exports indexName).nodup_keys
  cases mode with
  | none => exact List.nodup_nil
  | single => exact List.nodup_singleton _
  | directories =>
    rw [planned, paths_ofDirectories]
    exact hkeys.map hinjective
  | all =>
    rw [planned, List.map_cons, paths_ofDirectories, isIndexOf_root.path, ← List.map_cons
      (f := (Path.join · indexName))]
    refine (List.nodup_cons.2 ⟨fun hroot => ?_, hkeys⟩).map hinjective
    have hmem := mem_ofDirectories_iff.1 (NameMap.mem_keys_iff.1 hroot)
    exact ne_empty_of_mem_directories hmem rfl

/-! ## Taken paths -/

theorem not_mem_of_foldlM_place {indexes : List OutputFile} {files result : NameMap OutputFile}
    (h : indexes.foldlM place files = .ok result) : ∀ index ∈ indexes, index.path ∉ files := by
  induction indexes generalizing files with
  | nil => simp
  | cons first indexes ih =>
    obtain ⟨next, hnext, hrest⟩ := Fallible.foldlM_cons_eq_ok.1 h
    obtain ⟨hfree, rfl⟩ := place_eq_ok_iff.1 hnext
    intro index hindex
    rcases List.mem_cons.1 hindex with rfl | hindex
    · exact NameMap.get?_eq_none_iff.1 hfree
    · exact fun hmem => ih hrest index hindex (NameMap.mem_insert.2 (Or.inr hmem))

/-- Indexes with different paths are in the way of nothing but the given files. -/
theorem foldlM_place_eq_error {indexes : List OutputFile} (hnodup : (indexes.map (·.path)).Nodup)
    {files : NameMap OutputFile} {cause : OutputError}
    (h : indexes.foldlM place files = .error cause) : ∃ index ∈ indexes, ∃ file,
      files.get? index.path = some file ∧
        cause = .pathCollision index.path (occupant file) .index := by
  induction indexes generalizing files with
  | nil => cases h
  | cons first indexes ih =>
    obtain ⟨hfirst, hnodup⟩ := List.nodup_cons.1 hnodup
    rcases Fallible.foldlM_cons_eq_error.1 h with hnow | ⟨next, hnext, hlater⟩
    · unfold place at hnow
      split at hnow
      · rename_i file hget
        cases hnow
        exact ⟨first, List.mem_cons_self, file, hget, rfl⟩
      · cases hnow
    · obtain ⟨-, rfl⟩ := place_eq_ok_iff.1 hnext
      obtain ⟨index, hindex, file, hget, hcause⟩ := ih hnodup hlater
      have hne : index.path ≠ first.path := fun heq => hfirst (List.mem_map.2 ⟨index, hindex, heq⟩)
      rw [NameMap.get?_insert, if_neg hne] at hget
      exact ⟨index, List.mem_cons_of_mem _ hindex, file, hget, hcause⟩

/-! ## Entries of indexes -/

theorem IndexFor.lists (hname : '/' ∉ indexName.toList) {directory : String} {index : OutputFile}
    (h : IndexFor exports indexName directory index) :
    Lists exports indexName directory index := by
  rcases h with hget | ⟨rfl, rfl⟩
  · exact lists_of_get? hname hget
  · exact lists_root hname

theorem reExports_ofContents_entries (path : String) :
    (ofContents path exports.entries).reExports = exports :=
  NameMap.ext_get? fun target => Option.ext fun names => by
    rw [get?_reExports_ofContents exports.nodup_keys, NameMap.get?_eq_some_iff]

theorem namesInside_ofContents (path : String) :
    NamesInside exports "" (ofContents path exports.entries).exportedNames := by
  intro name
  rw [mem_exportedNames_ofContents]
  simp only [Prod.exists, ← NameMap.get?_eq_some_iff, Path.isInside_root, true_and]

/-- A name that an index lists for a target is one of the target itself, or of a file inside its
directory. -/
theorem Lists.exists_export {directory : String} {index : OutputFile}
    (h : Lists exports indexName directory index) {target name : String} {names : NameSet}
    (hget : index.reExports.get? target = some names) (hmem : name ∈ names) :
    ∃ path own, exports.get? path = some own ∧ name ∈ own ∧
      (Path.parent path = directory ∧ path = target ∨
        ∃ child, child ≠ "" ∧ Path.parent child = directory ∧ Path.IsAbove child path ∧
          Path.join child indexName = target) := by
  rcases (h.entries target names).1 hget with ⟨hfile, hparent⟩ | ⟨child, hchild, hparent, hjoin, hn⟩
  · exact ⟨target, names, hfile, hmem, Or.inl ⟨hparent, rfl⟩⟩
  · have hne := ne_empty_of_mem_directories hchild
    obtain ⟨path, own, hpath, hinside, hown⟩ := (hn name).1 hmem
    exact ⟨path, own, hpath, hown,
      Or.inr ⟨child, hne, hparent, (Path.isInside_iff_isAbove hne).1 hinside, hjoin⟩⟩

/-- Where no two files share a name, no two entries of an index do. -/
theorem Lists.apart {directory : String} {index : OutputFile}
    (h : Lists exports indexName directory index) (hapart : exports.Apart id) :
    index.reExports.Apart id := by
  intro a b own others ha hb hne name hown hothers
  obtain ⟨path, names, hpath, hname, hatarget⟩ := h.exists_export ha hown
  obtain ⟨path', names', hpath', hname', hbtarget⟩ := h.exists_export hb hothers
  have hsame : path = path' := by
    by_contra hother
    exact hapart hpath hpath' hother name hname hname'
  subst hsame
  rcases hatarget with ⟨hparent, rfl⟩ | ⟨child, hchild, hparent, habove, rfl⟩
  · rcases hbtarget with ⟨-, rfl⟩ | ⟨child, hchild, hparent', habove, -⟩
    · exact hne rfl
    · exact Path.not_isAbove_of_parent_eq hchild (hparent.trans hparent'.symm) habove
  · rcases hbtarget with ⟨hparent', -⟩ | ⟨child', hchild', hparent', habove', rfl⟩
    · exact Path.not_isAbove_of_parent_eq hchild (hparent'.trans hparent.symm) habove
    · refine hne (congrArg (Path.join · indexName) ?_)
      exact Path.eq_of_isAbove hchild hchild' (hparent.trans hparent'.symm) habove habove'

end Index

/-! ## Complete results -/

/-- The files with the indexes that the mode asks for. -/
structure Index.Completed (files result : NameMap OutputFile) (mode : ReExportMode)
    (indexName : String) : Prop where
  kept : ∀ {path file}, files.get? path = some file → result.get? path = some file
  mem_iff : ∀ {path}, path ∈ result ↔
    path ∈ files ∨ Index.Requested (· ∈ files) mode indexName path
  added : ∀ {path index}, result.get? path = some index → path ∉ files →
    index.path = path ∧ Index.Bare index
  root : mode.hasRootIndex = true → indexName ∉ files ∧
    ∃ index, result.get? indexName = some index ∧ ∀ name, name ∈ index.exportedNames ↔
      ∃ path file, files.get? path = some file ∧ name ∈ file.exportedNames
  directory : mode.hasDirectoryIndexes = true → ∀ {directory}, directory ≠ "" →
    (∃ file ∈ files, Path.IsAbove directory file) → directory ++ "/" ++ indexName ∉ files ∧
      ∃ index, result.get? (directory ++ "/" ++ indexName) = some index ∧
        ∀ name, name ∈ index.exportedNames ↔ ∃ path file, files.get? path = some file ∧
          Path.IsAbove directory path ∧ name ∈ file.exportedNames
  listed : ∀ {path index}, result.get? path = some index → path ∉ files → ∀ name,
    name ∈ index.exportedNames ↔
      ∃ target names, index.reExports.get? target = some names ∧ name ∈ names
  entries : ∀ {path index target names}, result.get? path = some index → path ∉ files →
    index.reExports.get? target = some names →
      ∃ file, result.get? target = some file ∧ file.exportedNames = names
  apart : files.Apart OutputFile.exportedNames → ∀ {path index}, result.get? path = some index →
    path ∉ files → index.reExports.Apart id

namespace Index

section Completion

variable {files result : NameMap OutputFile} {mode : ReExportMode} {indexName : String}

theorem NamesInside.mem_iff (hfiles : DeclarationFiles files) {directory : String}
    {names : NameSet} (h : NamesInside (exports files) directory names) {name : String} :
    name ∈ names ↔ ∃ path file, files.get? path = some file ∧ Path.IsInside directory path ∧
      name ∈ file.exportedNames := by
  rw [h name]
  simp only [get?_exports hfiles]
  constructor
  · rintro ⟨path, _, ⟨file, hget, rfl⟩, hinside, hmem⟩
    exact ⟨path, file, hget, hinside, hmem⟩
  · rintro ⟨path, file, hget, hinside, hmem⟩
    exact ⟨path, _, ⟨file, hget, rfl⟩, hinside, hmem⟩

theorem apart_exports (hfiles : DeclarationFiles files)
    (hapart : files.Apart OutputFile.exportedNames) : (exports files).Apart id := by
  intro a b own others ha hb hne
  obtain ⟨file, hfile, rfl⟩ := (get?_exports hfiles).1 ha
  obtain ⟨other, hother, rfl⟩ := (get?_exports hfiles).1 hb
  exact hapart hfile hother hne

theorem requested_iff (hfiles : DeclarationFiles files) {path : String} :
    (∃ index ∈ planned (exports files) indexName mode, index.path = path) ↔
      Requested (· ∈ files) mode indexName path := by
  rw [exists_planned_path_iff]
  simp only [Requested, mem_exports_iff hfiles]

/-- Planning fails at a requested path that a file has. -/
theorem taken_of_error (hfiles : DeclarationFiles files) (hname : '/' ∉ indexName.toList)
    {cause : OutputError} (h : planIndexes files mode indexName = .error cause) : ∃ path file,
      files.get? path = some file ∧ Requested (· ∈ files) mode indexName path ∧
        cause = .pathCollision path (occupant file) .index := by
  obtain ⟨index, hindex, file, hget, heq⟩ := foldlM_place_eq_error (nodup_paths_planned hname) h
  exact ⟨index.path, file, hget, (requested_iff hfiles).1 ⟨index, hindex, rfl⟩, heq⟩

theorem planned_of_not_mem (h : planIndexes files mode indexName = .ok result) {path : String}
    {index : OutputFile} (hget : result.get? path = some index) (hnew : path ∉ files) :
    index ∈ planned (exports files) indexName mode ∧ index.path = path :=
  ((get?_planIndexes h).1 hget).resolve_left fun hold => hnew (NameMap.mem_of_get? hold)

theorem exists_index (h : planIndexes files mode indexName = .ok result)
    (hname : '/' ∉ indexName.toList) {directory : String}
    (hdirectory : Indexed (exports files) mode directory) :
    ∃ index, result.get? (Path.join directory indexName) = some index ∧
      Lists (exports files) indexName directory index := by
  obtain ⟨index, hplanned, hindex⟩ : ∃ index ∈ planned (exports files) indexName mode,
    IndexFor (exports files) indexName directory index := exists_indexFor hdirectory
  exact ⟨index, (get?_planIndexes h).2 (Or.inr ⟨hplanned, hindex.isIndexOf.path⟩),
    hindex.lists hname⟩

variable (hfiles : DeclarationFiles files) (h : planIndexes files mode indexName = .ok result)
include hfiles h

theorem not_mem_of_requested {path : String}
    (hpath : Requested (· ∈ files) mode indexName path) : path ∉ files := by
  obtain ⟨index, hindex, rfl⟩ := (requested_iff hfiles).2 hpath
  exact not_mem_of_foldlM_place h index hindex

variable (hname : '/' ∉ indexName.toList)
include hname

theorem exists_root (hmode : mode.hasRootIndex = true) :
    ∃ index, result.get? indexName = some index ∧ ∀ name, name ∈ index.exportedNames ↔
      ∃ path file, files.get? path = some file ∧ name ∈ file.exportedNames := by
  have hroot : ∃ index, result.get? indexName = some index ∧
      NamesInside (exports files) "" index.exportedNames := by
    cases mode with
    | none => cases hmode
    | directories => cases hmode
    | single =>
      exact ⟨ofContents indexName (exports files).entries, (get?_planIndexes h).2
        (Or.inr ⟨List.mem_singleton_self _, path_ofContents ..⟩), namesInside_ofContents indexName⟩
    | all =>
      obtain ⟨index, hget, hlists⟩ := exists_index h hname ⟨rfl, Or.inr ⟨rfl, rfl⟩⟩
      exact ⟨index, hget, hlists.names⟩
  obtain ⟨index, hget, hnames⟩ := hroot
  refine ⟨index, hget, fun name => ?_⟩
  rw [hnames.mem_iff hfiles]
  simp only [Path.isInside_root, true_and]

theorem exists_target {index : OutputFile}
    (hindex : index ∈ planned (exports files) indexName mode) {target : String} {names : NameSet}
    (hget : index.reExports.get? target = some names) :
    ∃ file, result.get? target = some file ∧ file.exportedNames = names := by
  have hgiven : (exports files).get? target = some names →
      ∃ file, result.get? target = some file ∧ file.exportedNames = names := by
    intro hexport
    obtain ⟨file, hfile, heq⟩ := (get?_exports hfiles).1 hexport
    exact ⟨file, (get?_planIndexes h).2 (Or.inl hfile), heq⟩
  rcases mem_planned_iff.1 hindex with ⟨-, rfl⟩ | ⟨directory, ⟨hmode, -⟩, hfor⟩
  · rw [reExports_ofContents_entries] at hget
    exact hgiven hget
  · rcases ((hfor.lists hname).entries target names).1 hget with
      ⟨hexport, -⟩ | ⟨child, hchild, -, rfl, hnames⟩
    · exact hgiven hexport
    · obtain ⟨inner, hinner, hlists⟩ := exists_index h hname ⟨hmode, Or.inl hchild⟩
      exact ⟨inner, hinner, hlists.names.unique hnames⟩

theorem completed_planIndexes : Completed files result mode indexName where
  kept hget := (get?_planIndexes h).2 (Or.inl hget)
  mem_iff {path} := by
    rw [← requested_iff hfiles]
    simp only [NameMap.mem_iff_get?, get?_planIndexes h, exists_or]
  added hget hnew := by
    obtain ⟨hplanned, hpath⟩ := planned_of_not_mem h hget hnew
    exact ⟨hpath, bare_of_planned hplanned⟩
  root hmode :=
    ⟨not_mem_of_requested hfiles h (Or.inl ⟨hmode, rfl⟩), exists_root hfiles h hname hmode⟩
  directory hmode {directory} hne habove := by
    refine ⟨not_mem_of_requested hfiles h (Or.inr ⟨hmode, directory, hne, habove, rfl⟩), ?_⟩
    simp only [← mem_exports_iff hfiles] at habove
    obtain ⟨index, hget, hlists⟩ :=
      exists_index h hname (indexed_of_isAbove hmode hne habove)
    rw [path_join hne] at hget
    refine ⟨index, hget, fun name => ?_⟩
    rw [hlists.names.mem_iff hfiles]
    simp only [Path.isInside_iff_isAbove hne]
  listed {path index} hget hnew name := by
    rcases mem_planned_iff.1 (planned_of_not_mem h hget hnew).1 with ⟨-, rfl⟩ | ⟨directory, -, hfor⟩
    · exact mem_exportedNames_iff_reExports (exports files).nodup_keys
    · exact (hfor.lists hname).listed name
  entries hget hnew hentry :=
    exists_target hfiles h hname (planned_of_not_mem h hget hnew).1 hentry
  apart hapart {path index} hget hnew := by
    have hexports := apart_exports hfiles hapart
    rcases mem_planned_iff.1 (planned_of_not_mem h hget hnew).1 with
      ⟨-, rfl⟩ | ⟨directory, -, hfor⟩
    · rwa [reExports_ofContents_entries]
    · exact (hfor.lists hname).apart hexports

end Completion

end Index

/-- **Planning.** For declaration files under their own paths and an index name without a slash,
planning fails exactly when a requested path is taken, and says by which file. Otherwise it adds the
requested indexes, with the names and entries that they should have. -/
theorem planIndexes_completed {files : NameMap OutputFile} (hfiles : DeclarationFiles files)
    (mode : ReExportMode) {indexName : String} (hname : '/' ∉ indexName.toList) :
    ((∃ cause, planIndexes files mode indexName = .error cause) ↔
      ∃ path ∈ files, Index.Requested (· ∈ files) mode indexName path) ∧
    (∀ cause, planIndexes files mode indexName = .error cause → ∃ path file,
      files.get? path = some file ∧ Index.Requested (· ∈ files) mode indexName path ∧
        cause = .pathCollision path (Index.occupant file) .index) ∧
    ∀ result, planIndexes files mode indexName = .ok result →
      Index.Completed files result mode indexName := by
  refine ⟨⟨?_, ?_⟩, fun cause => Index.taken_of_error hfiles hname,
    fun result hok => Index.completed_planIndexes hfiles hok hname⟩
  · rintro ⟨cause, herror⟩
    obtain ⟨path, file, hget, hrequested, -⟩ := Index.taken_of_error hfiles hname herror
    exact ⟨path, NameMap.mem_of_get? hget, hrequested⟩
  · rintro ⟨path, hpath, hrequested⟩
    cases hplanned : planIndexes files mode indexName with
    | error cause => exact ⟨cause, rfl⟩
    | ok result => exact absurd hpath (Index.not_mem_of_requested hfiles hplanned hrequested)

/-- One file in each of a directory, the directory above it and the root. -/
def nestedFiles : NameMap OutputFile :=
  .ofList ([("a/b/x.ts", "X"), ("a/y.ts", "Y"), ("z.ts", "Z")].map fun (path, name) =>
    (path, { OutputFile.empty path .declarations with exportedNames := .ofList [name] }))

theorem planIndexes_completed_nestedFiles : DeclarationFiles nestedFiles ∧
    ∃ result, planIndexes nestedFiles .all "index.ts" = .ok result ∧
      Index.Completed nestedFiles result .all "index.ts" := by
  have hentries : ∀ entry ∈ nestedFiles.entries,
      entry.2.path = entry.1 ∧ entry.2.isIndex = false := by
    decide
  have hfiles : DeclarationFiles nestedFiles :=
    ⟨fun hget => (hentries _ (NameMap.get?_eq_some_iff.1 hget)).1,
      fun hget => (hentries _ (NameMap.get?_eq_some_iff.1 hget)).2⟩
  have hname : '/' ∉ "index.ts".toList := by decide
  have hcompleted := (planIndexes_completed hfiles .all hname).2.2
  cases hplanned : planIndexes nestedFiles .all "index.ts" with
  | error cause =>
    have hsome : (planIndexes nestedFiles .all "index.ts").toOption.isSome = true := by cbv
    rw [hplanned] at hsome
    cases hsome
  | ok result => exact ⟨hfiles, result, rfl, hcompleted result hplanned⟩

end SchemaLayout
