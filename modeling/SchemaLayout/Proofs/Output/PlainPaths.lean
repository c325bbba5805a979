import SchemaLayout.Proofs.Output.Arrangement
import SchemaLayout.Proofs.Output.Inside
import SchemaLayout.Proofs.Output.Outcome
import SchemaLayout.Proofs.Output.Patterns
import SchemaLayout.Proofs.Text.Kebab

/-!
# The paths of a tree

A tree has the files of the declarations and indexes in the directories of those
(`isFile_assemble`). So paths are plain when those of the declarations are, and what is above a path
is above that of a declaration. Rendering does not check what it takes from definitions (`Takes`):
where that has no slash, the paths of declarations are all of one depth, and where it is a segment
they are plain. Words, such as names in PascalCase, give segments (`takes_isSegment_of_isWord`).

* `assemble_paths`: which paths are plain, and which are above others.
-/
namespace SchemaLayout

namespace Config

theorem isDirectorySegment_of_conflict? {config : Config} (h : config.conflict? = none) :
    isDirectorySegment config.sharedDirectory = true := by
  unfold conflict? at h
  split at h
  · cases h
  · rename_i hsegment
    simpa using hsegment

theorem not_mem_of_isDirectorySegment {directory : String}
    (h : isDirectorySegment directory = true) : '/' ∉ directory.toList := by
  simp only [isDirectorySegment, Bool.not_eq_true', Bool.or_eq_false_iff, List.any_eq_false] at h
  exact fun hslash => h.1.2 '/' hslash rfl

theorem isSegment_of_isDirectorySegment {directory : String}
    (h : isDirectorySegment directory = true) (hdot : directory ≠ ".") :
    Path.IsSegment directory := by
  refine ⟨not_mem_of_isDirectorySegment h, ?_⟩
  simp only [isDirectorySegment, Bool.not_eq_true', Bool.or_eq_false_iff, beq_eq_false_iff_ne] at h
  obtain ⟨⟨hblank, -⟩, hdots⟩ := h
  have hempty : directory ≠ "" := by
    rintro rfl
    cases hblank
  simp [Pattern.isBadPart, hempty, hdot, hdots]

end Config

namespace Layout

open SchemaLayout.Path (IsPlain IsSegment IsAbove)

variable {config : Config} {layout : Layout} {set : DefinitionSet} {tree : FileTree}

/-! ## The files of a tree -/

/-- The path of an index: in the root, or in a directory that some declaration is below. -/
def IsIndexPath (layout : Layout) (set : DefinitionSet) (path : String) : Prop :=
  ∃ directory, path = Path.join directory layout.indexFile ∧
    (directory = "" ∨ ∃ d ∈ set.declarations, IsAbove directory (layout.pathFor d))

/-- The file of a declaration, or an index. -/
def IsFile (layout : Layout) (set : DefinitionSet) (path : String) (file : OutputFile) : Prop :=
  (file.isIndex = false ∧ ∃ d ∈ set.declarations, layout.pathFor d = path) ∨
    (file.isIndex = true ∧ layout.emitSingle = false ∧ layout.IsIndexPath set path)

theorem isIndexPath_of_planned {placed : FileTree} (hplaced : layout.place set = .ok placed)
    {mode : ReExportMode} {index : OutputFile}
    (h : index ∈ Index.planned (Index.exports placed.withImports.files) layout.indexFile mode) :
    layout.IsIndexPath set index.path := by
  have hfiles := declarationFiles_placed hplaced
  rcases Index.isIndexOf_of_planned h with ⟨-, rfl⟩ | ⟨directory, ⟨-, hdirectory⟩, hindex⟩
  · exact ⟨"", Index.path_ofContents .., Or.inl rfl⟩
  · refine ⟨directory, hindex.path, ?_⟩
    rcases hdirectory with hmem | ⟨hroot, -⟩
    · obtain ⟨path, hpath, habove⟩ := (Index.mem_directories_iff_isAbove.1 hmem).2
      obtain ⟨d, hd, rfl⟩ :=
        (mem_files_withImports hplaced).1 ((Index.mem_exports_iff hfiles).1 hpath)
      exact Or.inr ⟨d, hd, habove⟩
    · exact Or.inl hroot

/-- Beside the files of declarations there are indexes only. -/
theorem isFile_addIndexes {placed indexed : FileTree} (hplaced : layout.place set = .ok placed)
    (h : layout.addIndexes placed.withImports = .ok indexed) {path : String} {file : OutputFile}
    (hget : indexed.files.get? path = some file) : layout.IsFile set path file := by
  have hfiles := declarationFiles_placed hplaced
  have hdeclares : ∀ {path file}, placed.withImports.files.get? path = some file →
      layout.IsFile set path file := fun hget =>
    Or.inl ⟨hfiles.declares hget, (mem_files_withImports hplaced).1 (NameMap.mem_of_get? hget)⟩
  unfold addIndexes at h
  split at h
  · cases h
    exact hdeclares hget
  · rename_i hsingle
    obtain ⟨files, hplanned, rfl⟩ := Fallible.map_eq_ok.1 h
    rcases (Index.get?_planIndexes hplanned).1 hget with hold | ⟨hindex, rfl⟩
    · exact hdeclares hold
    · exact Or.inr ⟨Index.isIndex_of_planned hindex, Bool.eq_false_iff.2 hsingle,
        isIndexPath_of_planned hplaced hindex⟩

theorem isFile_assemble (h : layout.assemble set = .ok tree) :
    (∀ d ∈ set.declarations, layout.pathFor d ∈ tree.files) ∧
      ∀ {path file}, tree.files.get? path = some file → layout.IsFile set path file := by
  refine ⟨fun d hd => (arranged_assemble h).given hd, fun {path file} hget => ?_⟩
  obtain ⟨placed, resolved, indexed, hplaced, -, hresolved, hindexed, -, -, rfl⟩ :=
    assemble_eq_ok_iff.1 h
  obtain ⟨-, rfl⟩ := FileTree.resolveImports_eq_ok_iff.1 hresolved
  obtain ⟨old, hold, rfl⟩ := FileTree.get?_fillSpecifiers.1 hget
  have hbefore : layout.IsFile set path old := isFile_addIndexes hplaced hindexed hold
  exact hbefore

/-! ## The paths of declarations -/

/-- What the pattern takes from a definition has a property: its name without the suffix of its kind
and its source entity, both in kebab case. -/
structure Takes (layout : Layout) (P : String → Prop) (declaration : Declaration) : Prop where
  name : layout.pattern.uses .name = true →
    P (Pattern.tokenText declaration layout.sharedDirectory .name)
  entity : layout.pattern.uses .model = true →
    ∀ entity, declaration.sourceEntity? = some entity → P (Text.kebab entity)

/-- The declaration has the shared directory in its path, and that is `.`, which is no segment. -/
def InDotDirectory (layout : Layout) (declaration : Declaration) : Prop :=
  layout.pattern.uses .model = true ∧ declaration.sourceEntity? = none ∧
    layout.sharedDirectory = "."

theorem isSegment_kind (d : Declaration) : IsSegment d.kind ∧ IsSegment d.kindPlural := by
  have htype : ∀ kind : TypeKind, IsSegment kind.name ∧ IsSegment kind.plural := by
    intro kind
    cases kind <;> decide
  have henum : IsSegment "enum" ∧ IsSegment "enums" := by decide
  cases d with
  | definition type => exact htype type.kind
  | enumeration enum => exact henum

/-- What tokens stand for has a property that kinds, the shared directory and what is taken from the
definition have. -/
theorem Takes.tokenText {P : String → Prop} {d : Declaration} (h : layout.Takes P d)
    (hkind : P d.kind ∧ P d.kindPlural)
    (hshared : layout.pattern.uses .model = true → d.sourceEntity? = none →
      P layout.sharedDirectory) (token : Token) (huses : layout.pattern.uses token = true) :
    P (Pattern.tokenText d layout.sharedDirectory token) := by
  cases token with
  | name => exact h.name huses
  | kind => exact hkind.1
  | kindPlural => exact hkind.2
  | model =>
    unfold Pattern.tokenText Pattern.renderSegment
    cases hsource : d.sourceEntity? with
    | none => exact hshared huses hsource
    | some entity => exact h.entity huses entity hsource

theorem Takes.imp {P Q : String → Prop} {d : Declaration} (h : layout.Takes P d)
    (himp : ∀ {text}, P text → Q text) : layout.Takes Q d where
  name huses := himp (h.name huses)
  entity huses entity hentity := himp (h.entity huses entity hentity)

theorem isSegment_kebab {text : String} (h : Text.IsWord text) : IsSegment (Text.kebab text) := by
  obtain ⟨hslash, hdot⟩ := h.not_mem_kebab
  have hdots : ∀ dots : String, '.' ∈ dots.toList → Text.kebab text ≠ dots := by
    rintro dots hmem rfl
    exact hdot hmem
  refine ⟨hslash, ?_⟩
  rw [Pattern.isBadPart, Bool.or_eq_false_iff, Bool.or_eq_false_iff, beq_eq_false_iff_ne,
    beq_eq_false_iff_ne, beq_eq_false_iff_ne]
  exact ⟨⟨h.kebab_ne_empty, hdots "." (by decide)⟩, hdots ".." (by decide)⟩

theorem takes_isSegment_of_isWord {d : Declaration} (hname : Text.IsWord d.name)
    (hentity : ∀ entity, d.sourceEntity? = some entity → Text.IsWord entity) :
    layout.Takes IsSegment d where
  name _ := by
    unfold Pattern.tokenText Pattern.renderSegment
    refine isSegment_kebab ?_
    cases d.suffix? with
    | none => exact hname
    | some suffix => exact hname.withoutSuffix suffix
  entity _ entity hsome := isSegment_kebab (hentity entity hsome)

section Accepted

variable (hconfig : config.conflict? = none) (hlayout : ofConfig config = .ok layout)
include hlayout

theorem isSegment_indexFile : IsSegment layout.indexFile := by
  obtain ⟨pattern, -, rfl⟩ := ofConfig_eq_ok hlayout
  exact Pattern.isSegment_indexFile pattern

theorem isPlain_text_pattern : IsPlain layout.pattern.text := by
  obtain ⟨pattern, hparse, rfl⟩ := ofConfig_eq_ok hlayout
  rw [Pattern.text_of_parse hparse]
  exact Pattern.isPlain_of_parse hparse

include hconfig

theorem isDirectorySegment_sharedDirectory :
    Config.isDirectorySegment layout.sharedDirectory = true := by
  obtain ⟨pattern, -, rfl⟩ := ofConfig_eq_ok hlayout
  exact Config.isDirectorySegment_of_conflict? hconfig

theorem isPlain_pathFor {d : Declaration}
    (h : layout.emitSingle = false → layout.Takes IsSegment d ∧ ¬layout.InDotDirectory d) :
    IsPlain (layout.pathFor d) := by
  unfold pathFor
  split
  · exact (isSegment_indexFile hlayout).isPlain
  · rename_i hsingle
    obtain ⟨htakes, hdot⟩ := h (Bool.eq_false_iff.2 hsingle)
    have hdirectory := isDirectorySegment_sharedDirectory hconfig hlayout
    exact Pattern.isPlain_render (isPlain_text_pattern hlayout)
      (htakes.tokenText (isSegment_kind d) fun huses hnone =>
        Config.isSegment_of_isDirectorySegment hdirectory fun h => hdot ⟨huses, hnone, h⟩)

/-- Where texts have no slash, the path of no declaration is above that of another. -/
theorem not_isAbove_pathFor {d e : Declaration}
    (hd : layout.emitSingle = false → layout.Takes (fun text => '/' ∉ text.toList) d)
    (he : layout.emitSingle = false → layout.Takes (fun text => '/' ∉ text.toList) e) :
    ¬IsAbove (layout.pathFor d) (layout.pathFor e) := by
  unfold pathFor
  split
  · exact Path.not_isAbove_of_no_slash (isSegment_indexFile hlayout).1
  · rename_i hsingle
    have hdirectory := Config.not_mem_of_isDirectorySegment
      (isDirectorySegment_sharedDirectory hconfig hlayout)
    have hlength : ∀ d : Declaration, layout.Takes (fun text => '/' ∉ text.toList) d →
        (Path.segments (layout.pattern.render d layout.sharedDirectory)).length =
          (Path.segments layout.pattern.text).length := by
      intro d htakes
      exact Pattern.length_segments_render (htakes.tokenText
        ((isSegment_kind d).imp And.left And.left) fun _ _ => hdirectory)
    intro habove
    have hlt := habove.length_lt
    rw [hlength d (hd (Bool.eq_false_iff.2 hsingle)),
      hlength e (he (Bool.eq_false_iff.2 hsingle))] at hlt
    exact Nat.lt_irrefl _ hlt

end Accepted

/-! ## The paths of a tree -/

theorem isPlain_iff_assemble (hindex : IsSegment layout.indexFile)
    (h : layout.assemble set = .ok tree) :
    (∀ path ∈ tree.files, IsPlain path) ↔ ∀ d ∈ set.declarations, IsPlain (layout.pathFor d) := by
  obtain ⟨hgiven, hfile⟩ := isFile_assemble h
  refine ⟨fun hplain d hd => hplain _ (hgiven d hd), fun hplain path hpath => ?_⟩
  obtain ⟨file, hget⟩ := NameMap.mem_iff_get?.1 hpath
  rcases hfile hget with ⟨-, d, hd, rfl⟩ | ⟨-, -, directory, rfl, hdirectory⟩
  · exact hplain d hd
  · refine Path.isPlain_join hindex (hdirectory.imp_right ?_)
    rintro ⟨d, hd, habove⟩
    exact habove.isPlain (hplain d hd)

/-- What is above a path of the tree is above that of a declaration. -/
theorem isAbove_assemble (hindex : IsSegment layout.indexFile)
    (h : layout.assemble set = .ok tree) {path other : String} (hother : other ∈ tree.files)
    (habove : IsAbove path other) : ∃ d ∈ set.declarations, IsAbove path (layout.pathFor d) := by
  obtain ⟨file, hget⟩ := NameMap.mem_iff_get?.1 hother
  rcases (isFile_assemble h).2 hget with ⟨-, d, hd, rfl⟩ | ⟨-, -, directory, rfl, hdirectory⟩
  · exact ⟨d, hd, habove⟩
  · obtain ⟨hne, hin⟩ := Path.isAbove_join hindex.1 habove
    obtain ⟨d, hd, hbelow⟩ := hdirectory.resolve_left hne
    rcases hin with rfl | hin
    · exact ⟨d, hd, hbelow⟩
    · exact ⟨d, hd, hin.trans hbelow⟩

/-- What an index is above has the name of indexes among its directories. -/
theorem IsIndexPath.mem_dropLast (hindex : IsSegment layout.indexFile) {path other : String}
    (h : layout.IsIndexPath set path) (habove : IsAbove path other) :
    layout.indexFile ∈ (Path.segments other).dropLast := by
  obtain ⟨directory, rfl, -⟩ := h
  obtain ⟨rest, rfl⟩ := habove
  rw [Path.segments_append, List.dropLast_append_of_ne_nil (Path.segments_ne_nil rest)]
  refine List.mem_append_left _ ?_
  unfold Path.join
  split
  · rw [Path.segments_of_no_slash hindex.1]
    exact List.mem_singleton_self _
  · rw [Path.segments_below hindex.1]
    exact List.mem_append_right _ (List.mem_singleton_self _)

/-- **The paths of a tree.** For a configuration that is accepted, the paths of a tree are plain
exactly when those of its declarations are, and only the directories of declarations are above
paths. Where what the pattern takes from definitions are segments, all paths are plain; where it has
no slash, what is above another path is an index, whose name some declaration has among its
directories. -/
theorem assemble_paths (hconfig : config.conflict? = none) (hlayout : ofConfig config = .ok layout)
    (htree : layout.assemble set = .ok tree) :
    ((∀ path ∈ tree.files, IsPlain path) ↔
      ∀ d ∈ set.declarations, IsPlain (layout.pathFor d)) ∧
    ((config.emitSingle = false → ∀ d ∈ set.declarations,
        layout.Takes IsSegment d ∧ ¬layout.InDotDirectory d) →
      ∀ path ∈ tree.files, IsPlain path) ∧
    (∀ path, ∀ other ∈ tree.files, IsAbove path other →
      ∃ d ∈ set.declarations, IsAbove path (layout.pathFor d)) ∧
    ((config.emitSingle = false → ∀ d ∈ set.declarations,
        layout.Takes (fun text => '/' ∉ text.toList) d) →
      ∀ path file, tree.files.get? path = some file →
        ∀ other ∈ tree.files, IsAbove path other → file.isIndex = true ∧
          ∃ d ∈ set.declarations,
            layout.indexFile ∈ (Path.segments (layout.pathFor d)).dropLast) := by
  rw [← emitSingle_ofConfig hlayout]
  have hindex := isSegment_indexFile hlayout
  have hplain := isPlain_iff_assemble hindex htree
  refine ⟨hplain, fun htexts => hplain.2 fun d hd => ?_,
    fun path other => isAbove_assemble hindex htree, ?_⟩
  · exact isPlain_pathFor hconfig hlayout fun hsingle => htexts hsingle d hd
  · intro htexts path file hget other hother habove
    obtain ⟨e, he, hbelow⟩ := isAbove_assemble hindex htree hother habove
    rcases (isFile_assemble htree).2 hget with ⟨-, d, hd, rfl⟩ | ⟨hrole, -, hpath⟩
    · exact absurd hbelow (not_isAbove_pathFor hconfig hlayout
        (fun hsingle => htexts hsingle d hd) fun hsingle => htexts hsingle e he)
    · exact ⟨hrole, e, he, hpath.mem_dropLast hindex hbelow⟩

/-- Directories for entities, names without an extension, and one index for all files. -/
def bareNames : Layout where
  pattern := ⟨[.token .model, .literal "/", .token .name]⟩
  reExport := .single
  emitSingle := false
  sharedDirectory := "prisma"
  indexFile := "index"

def bareConfig : Config :=
  { Config.default with pattern := bareNames.pattern.text, reExport := .single }

def modelOf (name entity : String) : TypeDefinition := ⟨name, .model, [], some entity⟩

/-- A model of an entity that is named like the index. -/
def indexEntity : DefinitionSet := ⟨.ofList [("A", modelOf "A" "Index")], ∅⟩

theorem assemble_paths_indexEntity : bareConfig.conflict? = none ∧
    ofConfig bareConfig = .ok bareNames ∧ ∃ tree, bareNames.assemble indexEntity = .ok tree ∧
      (∀ path ∈ tree.files, IsPlain path) ∧
      ∀ path file, tree.files.get? path = some file →
        ∀ other ∈ tree.files, IsAbove path other → file.isIndex = true := by
  have hconfig : bareConfig.conflict? = none := by decide +kernel
  have hlayout : ofConfig bareConfig = .ok bareNames := by decide +kernel
  have hset : indexEntity.Valid := DefinitionSet.validate_eq_ok_iff.1 (by decide +kernel)
  have htexts : ∀ d ∈ indexEntity.declarations,
      bareNames.Takes IsSegment d ∧ ¬bareNames.InDotDirectory d := by
    have hall : ∀ d ∈ indexEntity.declarations, d = .definition (modelOf "A" "Index") := by decide
    intro d hd
    rw [hall d hd]
    have hname : Text.IsWord "A" := by decide
    have hindex : Text.IsWord "Index" := by decide
    refine ⟨takes_isSegment_of_isWord hname fun entity hsome => ?_, fun hdot => ?_⟩
    · cases hsome
      exact hindex
    · cases hdot.2.1
  have hpaths : (bareNames.assemble indexEntity).map (·.files.keys) =
      .ok ["index", "index/a"] := by
    rw [assemble_eq_of_valid hset fun hsingle => absurd hsingle Bool.false_ne_true]
    decide +kernel
  obtain ⟨tree, htree, -⟩ := Fallible.map_eq_ok.1 hpaths
  obtain ⟨-, hplain, -, hindex⟩ := assemble_paths hconfig hlayout htree
  refine ⟨hconfig, hlayout, tree, htree, hplain fun _ => htexts, ?_⟩
  intro path file hget other hother habove
  exact (hindex (fun _ d hd => (htexts d hd).1.imp And.left) path file hget other hother habove).1

/-- The same model beside one of an entity that is no segment. -/
def oddEntities : DefinitionSet :=
  ⟨.ofList [("A", modelOf "A" "Index"), ("B", modelOf "B" "..")], ∅⟩

/-- A tree with a path that is not plain, and a path that is above another. -/
theorem assemble_oddEntities : oddEntities.validate = .ok () ∧ bareConfig.conflict? = none ∧
    ofConfig bareConfig = .ok bareNames ∧ ∃ tree, bareNames.assemble oddEntities = .ok tree ∧
      (∃ path ∈ tree.files, ¬IsPlain path) ∧
        ∃ path ∈ tree.files, ∃ other ∈ tree.files, IsAbove path other := by
  have hvalid : oddEntities.validate = .ok () := by decide +kernel
  have hpaths : (bareNames.assemble oddEntities).map (·.files.keys) =
      .ok ["../b", "index", "index/a"] := by
    rw [assemble_eq_of_valid (DefinitionSet.validate_eq_ok_iff.1 hvalid)
      fun hsingle => absurd hsingle Bool.false_ne_true]
    decide +kernel
  obtain ⟨tree, htree, hkeys⟩ := Fallible.map_eq_ok.1 hpaths
  have hmem : ∀ path, path ∈ tree.files ↔ path ∈ ["../b", "index", "index/a"] := by
    intro path
    rw [← hkeys]
    exact NameMap.mem_keys_iff.symm
  refine ⟨hvalid, by decide +kernel, by decide +kernel, tree, htree, ?_, ?_⟩
  · exact ⟨"../b", (hmem _).2 (by decide), by decide⟩
  · exact ⟨"index", (hmem _).2 (by decide), "index/a", (hmem _).2 (by decide), "a", rfl⟩

end Layout

end SchemaLayout
