import SchemaLayout.Proofs.Output.Imports
import SchemaLayout.Proofs.Output.Placement
import SchemaLayout.Proofs.Output.Planning

/-!
# The stages of assembly

Assembling places declarations, resolves imports and adds indexes, with a check behind each stage
(`assemble_eq_ok_iff`, `assemble_eq_error_iff`). Imports leave files where they are, so indexes are
planned for the files of the declarations (`declarationFiles_placed`, `mem_files_withImports`).
-/
namespace SchemaLayout

namespace Layout

variable {layout : Layout} {set : DefinitionSet} {tree : FileTree} {cause : OutputError}

theorem refuse_eq_ok_iff {fault? : Option OutputError} {result : Unit} :
    refuse fault? = .ok result ↔ fault? = none := by
  cases fault? <;> simp [refuse]

theorem refuse_eq_error_iff {fault? : Option OutputError} :
    refuse fault? = .error cause ↔ fault? = some cause := by
  cases fault? <;> simp [refuse]

theorem assemble_eq_ok_iff : layout.assemble set = .ok tree ↔ ∃ placed resolved indexed,
    layout.place set = .ok placed ∧ placed.caseCollision? = none ∧
      placed.resolveImports = .ok resolved ∧ layout.addIndexes resolved = .ok indexed ∧
        indexed.caseCollision? = none ∧ indexed.fault? = none ∧
          indexed.fillSpecifiers layout.pattern.extension = tree := by
  unfold assemble
  simp only [Fallible.bind_eq_ok, refuse_eq_ok_iff, exists_const, exists_and_left, pure,
    Except.pure, Except.ok.injEq]

/-- No tree is assembled when a stage fails, and the first that does gives the cause. -/
theorem assemble_eq_error_iff : layout.assemble set = .error cause ↔
    layout.place set = .error cause ∨ ∃ placed, layout.place set = .ok placed ∧
      (placed.caseCollision? = some cause ∨ placed.caseCollision? = none ∧
        (placed.resolveImports = .error cause ∨ ∃ resolved, placed.resolveImports = .ok resolved ∧
          (layout.addIndexes resolved = .error cause ∨
            ∃ indexed, layout.addIndexes resolved = .ok indexed ∧
              (indexed.caseCollision? = some cause ∨ indexed.caseCollision? = none ∧
                indexed.fault? = some cause)))) := by
  unfold assemble
  simp only [Fallible.bind_eq_error, refuse_eq_ok_iff, refuse_eq_error_iff, exists_const, pure,
    Except.pure, reduceCtorEq, and_false, or_false]

end Layout

theorem FileTree.caseCollision?_eq_some {tree : FileTree} {cause : OutputError}
    (h : tree.caseCollision? = some cause) :
    ∃ path first second, cause = .pathCollision path first second := by
  obtain ⟨pair, -, rfl⟩ := Option.map_eq_some_iff.1 h
  exact ⟨_, _, _, rfl⟩

/-- Specifiers change neither where a file is nor what it is for. -/
theorem FileTree.get?_fillSpecifiers {tree : FileTree} {extension path : String}
    {file : OutputFile} :
    (tree.fillSpecifiers extension).files.get? path = some file ↔
      ∃ old, tree.files.get? path = some old ∧ { old with
        specifiers := old.targets.mapValues fun target _ =>
          Path.specifier extension old.path target } = file := by
  unfold fillSpecifiers
  rw [NameMap.get?_mapValues, Option.map_eq_some_iff]

/-! ## The files before indexes are added -/

namespace Layout

variable {config : Config} {layout : Layout} {set : DefinitionSet} {placed : FileTree}

/-- Before indexes are added, every file declares something and is held under its own path. -/
theorem declarationFiles_placed (hplaced : layout.place set = .ok placed) :
    DeclarationFiles placed.withImports.files where
  keyed hget := by
    obtain ⟨old, hold, rfl⟩ := FileTree.get?_withImports.1 hget
    have hpath : old.path = _ := (placed_place hplaced).path_eq hold
    exact hpath
  declares hget := by
    obtain ⟨old, hold, rfl⟩ := FileTree.get?_withImports.1 hget
    have hrole : old.isIndex = false := (placed_place hplaced).isIndex_eq_false hold
    exact hrole

theorem mem_files_withImports (hplaced : layout.place set = .ok placed) {path : String} :
    path ∈ placed.withImports.files ↔ ∃ d ∈ set.declarations, layout.pathFor d = path := by
  rw [← (placed_place hplaced).mem_files_iff]
  simp only [NameMap.mem_iff_get?, FileTree.get?_withImports]
  exact ⟨fun ⟨_, old, hold, _⟩ => ⟨old, hold⟩, fun ⟨old, hold⟩ => ⟨_, old, hold, rfl⟩⟩

/-! ## Layouts of configurations -/

theorem ofConfig_eq_ok (h : ofConfig config = .ok layout) : ∃ pattern,
    Pattern.parse config.pattern = .ok pattern ∧ layout =
      { pattern
        reExport := if config.emitSingle then .none else config.reExport
        emitSingle := config.emitSingle
        sharedDirectory := config.sharedDirectory
        indexFile := pattern.indexFile } := by
  unfold ofConfig at h
  cases hparse : Pattern.parse config.pattern with
  | error fault =>
    rw [hparse] at h
    cases h
  | ok pattern =>
    rw [hparse] at h
    simp only at h
    generalize (if config.emitSingle then ReExportMode.none else config.reExport) = mode at h ⊢
    split at h
    · cases h
    · cases h
      exact ⟨pattern, rfl, rfl⟩

theorem emitSingle_ofConfig (h : ofConfig config = .ok layout) :
    layout.emitSingle = config.emitSingle := by
  obtain ⟨pattern, -, rfl⟩ := ofConfig_eq_ok h
  rfl

end Layout

end SchemaLayout
