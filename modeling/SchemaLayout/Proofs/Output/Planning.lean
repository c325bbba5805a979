import Mathlib
import SchemaLayout.Proofs.Names.Entries
import SchemaLayout.Proofs.Names.Fallible
import SchemaLayout.Proofs.Output.Directories
import SchemaLayout.Proofs.Output.Verification

/-!
# Planned indexes are accepted

Planning adds indexes to the files it was given (`get?_planIndexes`): one for all files, or those of
directories (`isIndexOf_of_planned`). So:

* every target is there (`mem_of_reExports`);
* an index leads to files that re-export nothing and to indexes with a longer path
  (`mem_or_length_lt`), so no walk comes back;
* the way from the root to a file goes through the indexes of the directories that it is in
  (`reaches_directory`).

**Result.** `verify_planIndexes`: verification accepts whatever planning gives.
-/
namespace SchemaLayout

/-- Files that declare something, held under their own paths. -/
structure DeclarationFiles (files : NameMap OutputFile) : Prop where
  keyed : FileTree.Keyed files
  declares : ∀ {path file}, files.get? path = some file → file.isIndex = false

namespace Index

open Relation

theorem length_join_lt {a b : String} (h : a.length < b.length) (name : String) :
    (Path.join a name).length < (Path.join b name).length := by
  have hb : b ≠ "" := by
    rintro rfl
    exact Nat.not_lt_zero _ h
  have hslash : ("/" : String).length = 1 := rfl
  unfold Path.join
  rw [if_neg hb]
  split
  · simp only [String.length_append]
    omega
  · simp only [String.length_append]
    omega

/-! ## The planned files -/

theorem place_eq_ok_iff {files next : NameMap OutputFile} {index : OutputFile} :
    place files index = .ok next ↔
      files.get? index.path = none ∧ next = files.insert index.path index := by
  unfold place
  cases files.get? index.path with
  | none => simp [eq_comm]
  | some file => simp

theorem get?_foldlM_place {indexes : List OutputFile} {files result : NameMap OutputFile}
    (h : indexes.foldlM place files = .ok result) {path : String} {file : OutputFile} :
    result.get? path = some file ↔
      files.get? path = some file ∨ file ∈ indexes ∧ file.path = path := by
  induction indexes generalizing files with
  | nil =>
    cases h
    simp
  | cons index indexes ih =>
    obtain ⟨next, hnext, hrest⟩ := Fallible.foldlM_cons_eq_ok.1 h
    obtain ⟨hfree, rfl⟩ := place_eq_ok_iff.1 hnext
    rw [ih hrest, NameMap.get?_insert, List.mem_cons, or_and_right, ← or_assoc]
    refine or_congr_left ?_
    split
    · rename_i hpath
      rw [hpath, hfree]
      constructor
      · rintro heq; cases heq; exact Or.inr ⟨rfl, rfl⟩
      · rintro (hsome | ⟨rfl, -⟩)
        · cases hsome
        · rfl
    · rename_i hpath
      refine (or_iff_left ?_).symm
      rintro ⟨rfl, hsame⟩
      exact hpath hsame.symm

section Contents

variable {exports : NameMap NameSet} {indexName : String}

/-- The directories, the root among them, that get an index of their own. -/
def Indexed (exports : NameMap NameSet) (mode : ReExportMode) (directory : String) : Prop :=
  mode.hasDirectoryIndexes = true ∧
    (directory ∈ directories exports ∨ directory = "" ∧ mode.hasRootIndex = true)

/-- The index that is planned for a directory. -/
def IndexFor (exports : NameMap NameSet) (indexName directory : String) (index : OutputFile) :
    Prop :=
  (ofDirectories exports indexName).get? directory = some index ∨
    directory = "" ∧ index = ofDirectory exports indexName (ofDirectories exports indexName) ""

theorem IndexFor.isIndexOf {directory : String} {index : OutputFile}
    (h : IndexFor exports indexName directory index) :
    IsIndexOf exports indexName directory index := by
  rcases h with hget | ⟨rfl, rfl⟩
  · exact isIndexOf_of_get? hget
  · exact isIndexOf_root

/-- Planned is the single index of all files, or the index of each directory that gets one. -/
theorem mem_planned_iff {mode : ReExportMode} {index : OutputFile} :
    index ∈ planned exports indexName mode ↔
      mode = .single ∧ index = ofContents indexName exports.entries ∨
        ∃ directory, Indexed exports mode directory ∧
          IndexFor exports indexName directory index := by
  have hmem : ∀ {directory}, (ofDirectories exports indexName).get? directory = some index →
      directory ∈ directories exports :=
    fun hget => mem_ofDirectories_iff.1 (NameMap.mem_of_get? hget)
  cases mode with
  | none => simp [planned, Indexed, ReExportMode.hasDirectoryIndexes]
  | single => simp [planned, Indexed, ReExportMode.hasDirectoryIndexes]
  | directories =>
    rw [planned, NameMap.mem_values_iff]
    constructor
    · rintro ⟨directory, hget⟩
      exact Or.inr ⟨directory, ⟨rfl, Or.inl (hmem hget)⟩, Or.inl hget⟩
    · rintro (⟨hmode, -⟩ | ⟨directory, ⟨-, hdirectory⟩, hget | ⟨rfl, -⟩⟩)
      · cases hmode
      · exact ⟨directory, hget⟩
      · rcases hdirectory with hroot | ⟨-, hmode⟩
        · exact absurd rfl (ne_empty_of_mem_directories hroot)
        · cases hmode
  | all =>
    rw [planned, List.mem_cons, NameMap.mem_values_iff]
    constructor
    · rintro (rfl | ⟨directory, hget⟩)
      · exact Or.inr ⟨"", ⟨rfl, Or.inr ⟨rfl, rfl⟩⟩, Or.inr ⟨rfl, rfl⟩⟩
      · exact Or.inr ⟨directory, ⟨rfl, Or.inl (hmem hget)⟩, Or.inl hget⟩
    · rintro (⟨hmode, -⟩ | ⟨directory, -, hget | ⟨-, rfl⟩⟩)
      · cases hmode
      · exact Or.inr ⟨directory, hget⟩
      · exact Or.inl rfl

theorem isIndexOf_of_planned {mode : ReExportMode} {index : OutputFile}
    (h : index ∈ planned exports indexName mode) :
    mode = .single ∧ index = ofContents indexName exports.entries ∨
      ∃ directory, Indexed exports mode directory ∧
        IsIndexOf exports indexName directory index :=
  (mem_planned_iff.1 h).imp_right fun ⟨directory, hdirectory, hindex⟩ =>
    ⟨directory, hdirectory, hindex.isIndexOf⟩

/-- Every directory that is to get an index gets one. -/
theorem exists_indexFor {mode : ReExportMode} {directory : String}
    (h : Indexed exports mode directory) : ∃ index ∈ planned exports indexName mode,
      IndexFor exports indexName directory index := by
  have hfor : ∃ index, IndexFor exports indexName directory index := by
    rcases h.2 with hmem | ⟨rfl, -⟩
    · obtain ⟨index, hget⟩ := NameMap.mem_iff_get?.1 (mem_ofDirectories_iff.2 hmem)
      exact ⟨index, Or.inl hget⟩
    · exact ⟨_, Or.inr ⟨rfl, rfl⟩⟩
  obtain ⟨index, hindex⟩ := hfor
  exact ⟨index, mem_planned_iff.2 (Or.inr ⟨directory, h, hindex⟩), hindex⟩

theorem exists_planned {mode : ReExportMode} {directory : String}
    (h : Indexed exports mode directory) : ∃ index ∈ planned exports indexName mode,
      IsIndexOf exports indexName directory index :=
  (exists_indexFor h).imp fun _ ⟨hplanned, hindex⟩ => ⟨hplanned, hindex.isIndexOf⟩

theorem isIndex_of_planned {mode : ReExportMode} {index : OutputFile}
    (h : index ∈ planned exports indexName mode) : index.isIndex = true := by
  rcases isIndexOf_of_planned h with ⟨-, rfl⟩ | ⟨directory, -, hindex⟩
  · exact isIndex_ofContents ..
  · exact hindex.isIndex

end Contents

/-! ## The exports of declaration files -/

section Planned

variable {files result : NameMap OutputFile} {mode : ReExportMode} {indexName : String}

theorem exports_eq (hfiles : DeclarationFiles files) :
    exports files = files.mapValues fun _ file => file.exportedNames := by
  have hall : files.values.filter (!·.isIndex) = files.values := by
    refine List.filter_eq_self.2 fun file hmem => ?_
    obtain ⟨path, hget⟩ := NameMap.mem_values_iff.1 hmem
    rw [hfiles.declares hget]
    rfl
  have hpaths : files.values.map (fun file => (file.path, file.exportedNames)) =
      (files.mapValues fun _ file => file.exportedNames).entries := by
    rw [NameMap.values, List.map_map, NameMap.mapValues]
    refine List.map_congr_left fun entry hentry => ?_
    exact Prod.ext (hfiles.keyed (NameMap.get?_eq_some_iff.2 hentry)) rfl
  rw [exports, hall, hpaths]
  exact NameMap.ofList_of_perm (List.Perm.refl _)

theorem get?_exports (hfiles : DeclarationFiles files) {path : String} {names : NameSet} :
    (exports files).get? path = some names ↔
      ∃ file, files.get? path = some file ∧ file.exportedNames = names := by
  rw [exports_eq hfiles, NameMap.get?_mapValues, Option.map_eq_some_iff]

theorem mem_exports_iff (hfiles : DeclarationFiles files) {path : String} :
    path ∈ exports files ↔ path ∈ files := by
  simp only [NameMap.mem_iff_get?, get?_exports hfiles]
  rw [exists_comm]
  simp

variable (hfiles : DeclarationFiles files)
  (h : planIndexes files mode indexName = .ok result)
include h

theorem get?_planIndexes {path : String} {file : OutputFile} :
    result.get? path = some file ↔ files.get? path = some file ∨
      file ∈ planned (exports files) indexName mode ∧ file.path = path :=
  get?_foldlM_place h

theorem mem_planIndexes_of_mem {path : String} (hpath : path ∈ files) : path ∈ result := by
  obtain ⟨file, hget⟩ := NameMap.mem_iff_get?.1 hpath
  exact NameMap.mem_of_get? ((get?_planIndexes h).2 (Or.inl hget))

theorem mem_planIndexes_of_planned {index : OutputFile}
    (hindex : index ∈ planned (exports files) indexName mode) : index.path ∈ result :=
  NameMap.mem_of_get? ((get?_planIndexes h).2 (Or.inr ⟨hindex, rfl⟩))

theorem root_mem_planIndexes (hmode : mode.hasRootIndex = true) : indexName ∈ result := by
  cases mode with
  | none => cases hmode
  | directories => cases hmode
  | single =>
    have hmem := mem_planIndexes_of_planned h (List.mem_singleton_self _)
    rwa [path_ofContents] at hmem
  | all =>
    have hmem := mem_planIndexes_of_planned h List.mem_cons_self
    rwa [isIndexOf_root.path] at hmem

include hfiles

theorem keyed_planIndexes : FileTree.Keyed result := by
  intro path file hget
  rcases (get?_planIndexes h).1 hget with hold | ⟨-, hpath⟩
  · exact hfiles.keyed hold
  · exact hpath

variable {symbols : NameMap String} {root? : Option String}

theorem reExports_planned_iff {a b : String} :
    FileTree.ReExports ⟨result, symbols, root?⟩ a b ↔
      ∃ index ∈ planned (exports files) indexName mode, index.path = a ∧ b ∈ index.reExports := by
  rw [FileTree.reExports_iff (keyed_planIndexes hfiles h)]
  simp only [get?_planIndexes h]
  constructor
  · rintro ⟨file, hold | ⟨hplanned, hpath⟩, hrole, htarget⟩
    · rw [hfiles.declares hold] at hrole
      cases hrole
    · exact ⟨file, hplanned, hpath, htarget⟩
  · rintro ⟨index, hplanned, hpath, htarget⟩
    exact ⟨index, Or.inr ⟨hplanned, hpath⟩, isIndex_of_planned hplanned, htarget⟩

/-! ## Targets, order and reachability -/

theorem mem_of_reExports {a b : String} (hab : FileTree.ReExports ⟨result, symbols, root?⟩ a b) :
    b ∈ result := by
  obtain ⟨index, hplanned, -, htarget⟩ := (reExports_planned_iff hfiles h).1 hab
  rcases isIndexOf_of_planned hplanned with ⟨-, rfl⟩ | ⟨directory, ⟨hmode, -⟩, hindex⟩
  · refine mem_planIndexes_of_mem h ((mem_exports_iff hfiles).1 (NameMap.mem_keys_iff.1 ?_))
    exact mem_reExports_ofContents.1 htarget
  · rcases (hindex.targets b).1 htarget with ⟨hfile, -⟩ | ⟨child, hchild, -, rfl⟩
    · exact mem_planIndexes_of_mem h ((mem_exports_iff hfiles).1 hfile)
    · have hindexed : Indexed (exports files) mode child := ⟨hmode, Or.inl hchild⟩
      obtain ⟨inner, hinner, hright⟩ := exists_planned hindexed
      exact hright.path ▸ mem_planIndexes_of_planned h hinner

/-- An index leads to files that were given, and to indexes with a longer path. -/
theorem mem_or_length_lt {a b : String} (hab : FileTree.ReExports ⟨result, symbols, root?⟩ a b) :
    b ∈ files ∨ a.length < b.length := by
  obtain ⟨index, hplanned, rfl, htarget⟩ := (reExports_planned_iff hfiles h).1 hab
  rcases isIndexOf_of_planned hplanned with ⟨-, rfl⟩ | ⟨directory, -, hindex⟩
  · refine Or.inl ((mem_exports_iff hfiles).1 (NameMap.mem_keys_iff.1 ?_))
    exact mem_reExports_ofContents.1 htarget
  · rcases (hindex.targets b).1 htarget with ⟨hfile, -⟩ | ⟨child, hchild, rfl, rfl⟩
    · exact Or.inl ((mem_exports_iff hfiles).1 hfile)
    · rw [hindex.path]
      exact Or.inr (length_join_lt
        (Path.length_parent_lt (ne_empty_of_mem_directories hchild)) indexName)

theorem not_reExports_of_mem {a b : String} (ha : a ∈ files) :
    ¬FileTree.ReExports ⟨result, symbols, root?⟩ a b := by
  intro hab
  obtain ⟨file, hget, hrole, -⟩ := (FileTree.reExports_iff (keyed_planIndexes hfiles h)).1 hab
  obtain ⟨old, hold⟩ := NameMap.mem_iff_get?.1 ha
  have hnew := (get?_planIndexes h).2 (Or.inl hold)
  cases hnew.symm.trans hget
  rw [hfiles.declares hold] at hrole
  cases hrole

/-- Walks of one step or more end at a file that was given or at a longer path. -/
theorem mem_or_length_lt_of_transGen {a b : String}
    (hab : TransGen (FileTree.ReExports ⟨result, symbols, root?⟩) a b) :
    b ∈ files ∨ a.length < b.length := by
  induction hab with
  | single hab => exact mem_or_length_lt hfiles h hab
  | tail _ hbc ih =>
    rcases ih with hfile | hlt
    · exact absurd hbc (not_reExports_of_mem hfiles h hfile)
    · exact (mem_or_length_lt hfiles h hbc).imp_right (Nat.lt_trans hlt)

theorem acyclic_planIndexes {a : String} :
    ¬TransGen (FileTree.ReExports ⟨result, symbols, root?⟩) a a := by
  intro hcycle
  rcases mem_or_length_lt_of_transGen hfiles h hcycle with hfile | hlt
  · obtain ⟨next, hnext, -⟩ := TransGen.head'_iff.1 hcycle
    exact not_reExports_of_mem hfiles h hfile hnext
  · exact Nat.lt_irrefl _ hlt

/-- Every directory with an index leads from there to the files and directories in it. -/
theorem reExports_of_indexed {directory target : String}
    (hdirectory : Indexed (exports files) mode directory)
    (htarget : target ∈ exports files ∧ Path.parent target = directory ∨
      ∃ child ∈ directories (exports files), Path.parent child = directory ∧
        Path.join child indexName = target) :
    FileTree.ReExports ⟨result, symbols, root?⟩ (Path.join directory indexName) target := by
  obtain ⟨index, hplanned, hindex⟩ := exists_planned hdirectory
  exact (reExports_planned_iff hfiles h).2
    ⟨index, hplanned, hindex.path, (hindex.targets target).2 htarget⟩

/-- The root index leads to the index of every directory, through those of the directories that it
is in. -/
theorem reaches_directory (hmode : mode = .all) {directory : String}
    (hdirectory : directory ∈ directories (exports files)) :
    ReflTransGen (FileTree.ReExports ⟨result, symbols, root?⟩) indexName
      (Path.join directory indexName) := by
  subst hmode
  induction hlength : directory.length using Nat.strongRecOn generalizing directory with
  | ind length ih =>
    have hstep : Indexed (exports files) .all (Path.parent directory) →
        FileTree.ReExports ⟨result, symbols, root?⟩
          (Path.join (Path.parent directory) indexName) (Path.join directory indexName) :=
      fun hindexed => reExports_of_indexed hfiles h hindexed
        (Or.inr ⟨directory, hdirectory, rfl, rfl⟩)
    rcases closed_directories directory hdirectory with hroot | hparent
    · have hfirst := hstep ⟨rfl, Or.inr ⟨hroot, rfl⟩⟩
      rw [hroot] at hfirst
      exact ReflTransGen.single hfirst
    · have hlt := Path.length_parent_lt (ne_empty_of_mem_directories hdirectory)
      exact (ih _ (hlength ▸ hlt) hparent rfl).tail (hstep ⟨rfl, Or.inl hparent⟩)

/-- In the modes with a root index, the root leads to every file. -/
theorem reaches_file (hmode : mode.hasRootIndex = true) {path : String} (hpath : path ∈ files) :
    ReflTransGen (FileTree.ReExports ⟨result, symbols, root?⟩) indexName path := by
  have hexport := (mem_exports_iff hfiles).2 hpath
  cases mode with
  | none => cases hmode
  | directories => cases hmode
  | single =>
    refine ReflTransGen.single ((reExports_planned_iff hfiles h).2
      ⟨ofContents indexName (exports files).entries, List.mem_singleton_self _, path_ofContents ..,
        mem_reExports_ofContents.2 (NameMap.mem_keys_iff.2 hexport)⟩)
  | all =>
    have hlast : Indexed (exports files) .all (Path.parent path) →
        FileTree.ReExports ⟨result, symbols, root?⟩ (Path.join (Path.parent path) indexName) path :=
      fun hindexed => reExports_of_indexed hfiles h hindexed (Or.inl ⟨hexport, rfl⟩)
    rcases parent_mem_directories hexport with hroot | hparent
    · have honly := hlast ⟨rfl, Or.inr ⟨hroot, rfl⟩⟩
      rw [hroot] at honly
      exact ReflTransGen.single honly
    · exact (reaches_directory hfiles h rfl hparent).tail (hlast ⟨rfl, Or.inl hparent⟩)

theorem linked_planIndexes :
    FileTree.Linked ⟨result, symbols, rootIndex? mode indexName⟩ where
  present := mem_of_reExports hfiles h
  acyclic := acyclic_planIndexes hfiles h
  reached {root} hroot := by
    by_cases hmode : mode.hasRootIndex = true
    · have hname : some indexName = some root := (if_pos hmode).symm.trans hroot
      cases hname
      refine ⟨root_mem_planIndexes h hmode, fun {path file} hget hdeclares => ?_⟩
      rcases (get?_planIndexes h).1 hget with hold | ⟨hplanned, -⟩
      · exact reaches_file hfiles h hmode (NameMap.mem_of_get? hold)
      · rw [isIndex_of_planned hplanned] at hdeclares
        cases hdeclares
    · have hnone : none = some root := (if_neg hmode).symm.trans hroot
      cases hnone

end Planned

end Index

/-- **Planned indexes.** For files that declare something, held under their own paths, verification
accepts what planning gives: every target of a re-export is a file, no index comes back to itself,
and in the modes with a root index that index leads to every given file. -/
theorem verify_planIndexes {files result : NameMap OutputFile} (hfiles : DeclarationFiles files)
    {mode : ReExportMode} {indexName : String}
    (h : planIndexes files mode indexName = .ok result) (symbols : NameMap String) :
    let tree : FileTree := ⟨result, symbols, rootIndex? mode indexName⟩
    tree.verify = .ok () ∧ (∀ a b, tree.ReExports a b → b ∈ result) ∧
      (∀ a, ¬Relation.TransGen tree.ReExports a a) ∧
      (mode.hasRootIndex = true → rootIndex? mode indexName = some indexName ∧
        ∀ path ∈ files, Relation.ReflTransGen tree.ReExports indexName path) := by
  intro tree
  have hkeyed : FileTree.Keyed tree.files := Index.keyed_planIndexes hfiles h
  have hlinked : tree.Linked := Index.linked_planIndexes hfiles h
  refine ⟨(FileTree.verify_eq_ok_iff hkeyed).2 hlinked, fun _ _ => hlinked.present,
    fun _ => hlinked.acyclic, fun hmode => ⟨if_pos hmode, fun path hpath => ?_⟩⟩
  exact Index.reaches_file hfiles h hmode hpath

/-- Files at the root, under empty names of directories and below a doubled slash. -/
def oddPaths : NameMap OutputFile :=
  .ofList (["x.ts", "/x.ts", "//x.ts", "a//x.ts"].map fun path => (path, .empty path .declarations))

theorem verify_planIndexes_oddPaths : DeclarationFiles oddPaths ∧
    ∃ result, planIndexes oddPaths .all "index.ts" = .ok result ∧
      (⟨result, ∅, some "index.ts"⟩ : FileTree).verify = .ok () := by
  have hentries : ∀ entry ∈ oddPaths.entries, entry.2.path = entry.1 ∧ entry.2.isIndex = false := by
    decide
  have hfiles : DeclarationFiles oddPaths :=
    ⟨fun hget => (hentries _ (NameMap.get?_eq_some_iff.1 hget)).1,
      fun hget => (hentries _ (NameMap.get?_eq_some_iff.1 hget)).2⟩
  cases hplanned : planIndexes oddPaths .all "index.ts" with
  | error cause =>
    have hsome : (planIndexes oddPaths .all "index.ts").toOption.isSome = true := by cbv
    rw [hplanned] at hsome
    cases hsome
  | ok result => exact ⟨hfiles, result, rfl, (verify_planIndexes hfiles hplanned ∅).1⟩

end SchemaLayout
