import SchemaLayout.Proofs.Output.Assembly

/-!
# What the files of a tree hold

Behind placement, no stage moves a declaration. `Arranged` says what every tree holds of a set from
the resolving of imports on: the declarations of a path are in the file there (`OutputFile.Holds`),
and any other file is an index that declares nothing. Adding indexes keeps this, because the path of
an index is free (`Arranged.addIndexes`), and so does writing specifiers
(`Arranged.fillSpecifiers`); `arranged_assemble` is what a whole assembly gives.

The files of such a tree together have the declarations of the set, each as often as the set
(`Arranged.perm_declarations`).
-/
namespace SchemaLayout

/-- A file of a tree with these symbols that has the given declarations. It is an index exactly when
there are none. -/
structure OutputFile.Holds (file : OutputFile) (own : List Declaration)
    (symbols : NameMap String) : Prop where
  declarations : file.declarations = own
  imports : file.imports = FileTree.importsOf symbols file
  isIndex_iff : file.isIndex = true ↔ own = []
  exportedNames : file.isIndex = false → file.exportedNames = .ofList (own.map (·.name))
  reExports : file.isIndex = false → file.reExports = ∅

/-! ## Planned indexes -/

namespace Index

/-- An index that declares nothing, and so imports nothing. -/
structure Bare (index : OutputFile) : Prop where
  isIndex : index.isIndex = true
  declarations : index.declarations = []
  imports : index.imports = ∅

theorem bare_foldl_reExport (contents : List (String × NameSet)) {index : OutputFile}
    (h : Bare index) :
    Bare (contents.foldl (fun file entry => file.reExport entry.1 entry.2) index) := by
  induction contents generalizing index with
  | nil => exact h
  | cons entry contents ih => exact ih ⟨h.isIndex, h.declarations, h.imports⟩

theorem bare_ofContents (path : String) (contents : List (String × NameSet)) :
    Bare (ofContents path contents) :=
  bare_foldl_reExport contents ⟨rfl, rfl, rfl⟩

variable {exports : NameMap NameSet} {indexName : String}

theorem bare_of_planned {mode : ReExportMode} {index : OutputFile}
    (h : index ∈ planned exports indexName mode) : Bare index := by
  have hvalue : index ∈ (ofDirectories exports indexName).values → Bare index := by
    intro hmem
    obtain ⟨directory, hget⟩ := NameMap.mem_values_iff.1 hmem
    exact ofDirectories_induction (P := fun _ => Bare) (fun _ _ => bare_ofContents ..) hget
  cases mode with
  | none => cases h
  | single =>
    rw [List.mem_singleton.1 h]
    exact bare_ofContents ..
  | directories => exact hvalue h
  | all =>
    rcases List.mem_cons.1 h with rfl | hmem
    · exact bare_ofContents ..
    · exact hvalue hmem

end Index

theorem OutputFile.holds_of_bare {index : OutputFile} (h : Index.Bare index)
    (symbols : NameMap String) : index.Holds [] symbols where
  declarations := h.declarations
  imports := by
    rw [h.imports, FileTree.importsOf, FileTree.fileReferences, h.declarations]
    rfl
  isIndex_iff := iff_of_true h.isIndex rfl
  exportedNames hrole := by
    rw [h.isIndex] at hrole
    cases hrole
  reExports hrole := by
    rw [h.isIndex] at hrole
    cases hrole

/-! ## Arranged trees -/

namespace Layout

/-- What a tree holds of a set: under each path the declarations that have it, and the path of each
by its name. -/
structure Arranged (layout : Layout) (set : DefinitionSet) (tree : FileTree) : Prop where
  symbols : tree.symbols = .ofList (set.declarations.map fun d => (d.name, layout.pathFor d))
  given : ∀ {d}, d ∈ set.declarations → layout.pathFor d ∈ tree.files
  keyed : FileTree.Keyed tree.files
  holds : ∀ {path file}, tree.files.get? path = some file →
    file.Holds (set.declarations.filter (layout.pathFor · == path)) tree.symbols

variable {layout : Layout} {set : DefinitionSet} {tree placed resolved indexed : FileTree}

theorem arranged_withImports (hplaced : layout.place set = .ok placed) :
    layout.Arranged set placed.withImports where
  symbols := (placed_place hplaced).symbols
  given hd := (mem_files_withImports hplaced).2 ⟨_, hd, rfl⟩
  keyed := (declarationFiles_placed hplaced).keyed
  holds {path file} hget := by
    obtain ⟨old, hold, rfl⟩ := FileTree.get?_withImports.1 hget
    obtain ⟨⟨d, hd, hpath⟩, rfl⟩ := (placed_place hplaced).files.1 hold
    have hmem : d ∈ set.declarations.filter (layout.pathFor · == path) :=
      List.mem_filter.2 ⟨hd, beq_iff_eq.2 hpath⟩
    exact ⟨rfl, rfl, iff_of_false Bool.false_ne_true (List.ne_nil_of_mem hmem), fun _ => rfl,
      fun _ => rfl⟩

namespace Arranged

theorem exists_file (h : layout.Arranged set tree) {d : Declaration} (hd : d ∈ set.declarations) :
    ∃ file, tree.files.get? (layout.pathFor d) = some file ∧ d ∈ file.declarations := by
  obtain ⟨file, hget⟩ := NameMap.mem_iff_get?.1 (h.given hd)
  refine ⟨file, hget, ?_⟩
  rw [(h.holds hget).declarations]
  exact List.mem_filter.2 ⟨hd, beq_self_eq_true _⟩

theorem mem_declarations_iff (h : layout.Arranged set tree) {path : String} {file : OutputFile}
    (hget : tree.files.get? path = some file) {d : Declaration} :
    d ∈ file.declarations ↔ d ∈ set.declarations ∧ layout.pathFor d = path := by
  rw [(h.holds hget).declarations, List.mem_filter, beq_iff_eq]

/-- Indexes go where no declaration has its file. -/
theorem addIndexes (h : layout.Arranged set resolved)
    (hindexed : layout.addIndexes resolved = .ok indexed) : layout.Arranged set indexed := by
  unfold Layout.addIndexes at hindexed
  split at hindexed
  · cases hindexed
    exact ⟨h.symbols, h.given, h.keyed, h.holds⟩
  obtain ⟨files, hplanned, rfl⟩ := Fallible.map_eq_ok.1 hindexed
  have hget := @Index.get?_planIndexes _ _ _ _ hplanned
  refine ⟨h.symbols, fun hd => Index.mem_planIndexes_of_mem hplanned (h.given hd), ?_, ?_⟩
  · intro path file hfile
    rcases hget.1 hfile with hold | ⟨-, hpath⟩
    · exact h.keyed hold
    · exact hpath
  · intro path file hfile
    rcases hget.1 hfile with hold | ⟨hindex, -⟩
    · exact h.holds hold
    have hbare := Index.bare_of_planned hindex
    have hnone : set.declarations.filter (layout.pathFor · == path) = [] := by
      refine List.filter_eq_nil_iff.2 fun d hd hpath => ?_
      obtain ⟨old, hold, hmem⟩ := h.exists_file hd
      rw [beq_iff_eq.1 hpath] at hold
      -- the file of the declaration is still under the path, so the index would be that file
      cases (hget.2 (Or.inl hold)).symm.trans hfile
      rw [hbare.declarations] at hmem
      cases hmem
    rw [hnone]
    exact OutputFile.holds_of_bare hbare _

theorem fillSpecifiers (h : layout.Arranged set indexed) (extension : String) :
    layout.Arranged set (indexed.fillSpecifiers extension) where
  symbols := h.symbols
  given hd := by
    obtain ⟨old, hold⟩ := NameMap.mem_iff_get?.1 (h.given hd)
    exact NameMap.mem_of_get? (FileTree.get?_fillSpecifiers.2 ⟨old, hold, rfl⟩)
  keyed hget := by
    obtain ⟨old, hold, rfl⟩ := FileTree.get?_fillSpecifiers.1 hget
    have hpath : old.path = _ := h.keyed hold
    exact hpath
  holds hget := by
    obtain ⟨old, hold, rfl⟩ := FileTree.get?_fillSpecifiers.1 hget
    have hold := h.holds hold
    exact ⟨hold.declarations, hold.imports, hold.isIndex_iff, hold.exportedNames, hold.reExports⟩

end Arranged

theorem arranged_assemble (h : layout.assemble set = .ok tree) : layout.Arranged set tree := by
  obtain ⟨placed, resolved, indexed, hplaced, -, hresolved, hindexed, -, -, rfl⟩ :=
    assemble_eq_ok_iff.1 h
  obtain ⟨-, rfl⟩ := FileTree.resolveImports_eq_ok_iff.1 hresolved
  exact ((arranged_withImports hplaced).addIndexes hindexed).fillSpecifiers _

/-! ## All declarations of a tree -/

/-- What has one of several keys, key by key, is the whole list in another order. -/
theorem perm_flatMap_filter {α : Type} (key : α → String) {keys : List String}
    (hkeys : keys.Nodup) {l : List α} (hl : ∀ a ∈ l, key a ∈ keys) :
    (keys.flatMap fun k => l.filter (key · == k)).Perm l := by
  induction keys generalizing l with
  | nil =>
    have hnone : l = [] := List.eq_nil_iff_forall_not_mem.2 fun a ha => List.not_mem_nil (hl a ha)
    rw [hnone]
    exact .refl _
  | cons k keys ih =>
    obtain ⟨hk, hkeys⟩ := List.nodup_cons.1 hkeys
    have hothers : (keys.flatMap fun k => l.filter (key · == k)) =
        keys.flatMap fun other => (l.filter fun a => !(key a == k)).filter (key · == other) := by
      refine List.flatMap_congr fun other hother => ?_
      rw [List.filter_filter]
      refine List.filter_congr fun a _ => ?_
      by_cases hkey : key a = other
      · have hne : other ≠ k := fun heq => hk (heq ▸ hother)
        simp [hkey, hne]
      · simp [hkey]
    have hrest : ((l.filter fun a => !(key a == k)).map key) ⊆ keys := by
      intro name hname
      obtain ⟨a, ha, rfl⟩ := List.mem_map.1 hname
      obtain ⟨hmem, hne⟩ := List.mem_filter.1 ha
      exact (List.mem_cons.1 (hl a hmem)).resolve_left (by simpa using hne)
    rw [List.flatMap_cons, hothers]
    exact ((ih hkeys fun a ha => hrest (List.mem_map.2 ⟨a, ha, rfl⟩)).append_left _).trans
      (List.filter_append_perm (key · == k) l)

/-- The files of a tree have every declaration of the set, as often as the set has it. -/
theorem Arranged.perm_declarations (h : layout.Arranged set tree) :
    (tree.files.values.flatMap (·.declarations)).Perm set.declarations := by
  have hvalues : tree.files.values.flatMap (·.declarations) =
      tree.files.keys.flatMap fun path => set.declarations.filter (layout.pathFor · == path) := by
    unfold NameMap.values NameMap.keys
    rw [List.flatMap_map, List.flatMap_map]
    refine List.flatMap_congr fun entry hentry => ?_
    exact (h.holds (NameMap.get?_eq_some_iff.2 hentry)).declarations
  rw [hvalues]
  exact perm_flatMap_filter layout.pathFor tree.files.nodup_keys
    fun d hd => NameMap.mem_keys_iff.2 (h.given hd)

end Layout

end SchemaLayout
