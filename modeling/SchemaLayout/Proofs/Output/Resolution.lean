import SchemaLayout.Proofs.Output.Declarations

/-!
# Imports and unresolved references

A file refers to the names in the leaves of its declarations (`OutputFile.referencedNames`).
Resolving goes through them in order; `Imported` says what is imported after some of them: each name
by the path that it is held with, unless that is the file's own. `Imported.step` adds one name, and
`imported_importsOf` is what a whole file gives.

A name that is not held gives a finding for each leaf that it is in, so there are as many findings
as leaves of the set that refer to nothing in it (`length_unresolved_placed`).

* `assemble_imports`: when imports resolve, what they are then, and how many findings there are
  otherwise.
-/
namespace SchemaLayout

/-! ## References -/

namespace Declaration

def leaves : Declaration → List TypeRef
  | .definition type => type.leaves
  | .enumeration _ => []

theorem map_snd_references (d : Declaration) :
    d.references.map Prod.snd = d.leaves.filterMap TypeRef.referencedName? := by
  cases d with
  | enumeration enum => rfl
  | definition type =>
    simp only [references, leaves, TypeDefinition.leaves, List.map_flatMap, List.filterMap_flatMap,
      List.map_map, Function.comp_def, List.map_id']

end Declaration

namespace DefinitionSet

def leaves (set : DefinitionSet) : List TypeRef := set.declarations.flatMap (·.leaves)

/-- Whether a leaf refers to a name that nothing in the set has. -/
def isUnresolved (set : DefinitionSet) (leaf : TypeRef) : Bool :=
  leaf.referencedName?.any fun name => !set.declarations.any (·.name == name)

end DefinitionSet

namespace OutputFile

/-- The names that the file's declarations refer to, in order and with repeats. -/
def referencedNames (file : OutputFile) : List String :=
  (file.declarations.flatMap (·.leaves)).filterMap TypeRef.referencedName?

/-- Some leaf in the file refers to the name. -/
def RefersTo (file : OutputFile) (name : String) : Prop :=
  ∃ d ∈ file.declarations, ∃ leaf ∈ d.leaves, leaf.referencedName? = some name

theorem mem_referencedNames_iff {file : OutputFile} {name : String} :
    name ∈ file.referencedNames ↔ file.RefersTo name := by
  simp only [referencedNames, RefersTo, List.mem_filterMap, List.mem_flatMap]
  exact ⟨fun ⟨leaf, ⟨d, hd, hleaf⟩, hname⟩ => ⟨d, hd, leaf, hleaf, hname⟩,
    fun ⟨d, hd, leaf, hleaf, hname⟩ => ⟨leaf, ⟨d, hd, hleaf⟩, hname⟩⟩

end OutputFile

/-! ## What a file imports -/

namespace FileTree

variable {symbols : NameMap String} {own : String} {file : OutputFile}

theorem map_fileReferences (file : OutputFile) :
    (fileReferences file).map (·.2.2) = file.referencedNames := by
  simp only [fileReferences, OutputFile.referencedNames, List.map_flatMap, List.filterMap_flatMap,
    List.map_map, ← Declaration.map_snd_references, Function.comp_def]

/-- The imports of a file at `own` with one more name that it refers to. -/
def addImport (symbols : NameMap String) (own : String) (imports : NameMap NameSet)
    (name : String) : NameMap NameSet :=
  match symbols.get? name with
  | some path =>
    if path = own then imports else imports.alter path fun names? => (names?.getD ∅).add name
  | none => imports

theorem importsOf_eq : importsOf symbols file =
    file.referencedNames.foldl (addImport symbols file.path) ∅ := by
  rw [← map_fileReferences, List.foldl_map]
  rfl

/-- What a file at `own` imports after some names that it refers to. -/
structure Imported (symbols : NameMap String) (own : String) (done : List String)
    (imports : NameMap NameSet) : Prop where
  mem_iff : ∀ {target name}, (∃ names, imports.get? target = some names ∧ name ∈ names) ↔
    target ≠ own ∧ symbols.get? name = some target ∧ name ∈ done
  nonempty : ∀ {target names}, imports.get? target = some names → ∃ name, name ∈ names

theorem imported_empty : Imported symbols own [] ∅ where
  mem_iff := by simp
  nonempty hget := by cases hget

/-- A name that is not held, or held with the file's own path, is not imported. -/
theorem Imported.skip {done : List String} {imports : NameMap NameSet} {name : String}
    (h : Imported symbols own done imports)
    (hname : ∀ target, symbols.get? name = some target → target = own) :
    Imported symbols own (done ++ [name]) imports where
  mem_iff {target other} := by
    rw [h.mem_iff, List.mem_append, List.mem_singleton]
    refine and_congr_right fun hown => and_congr_right fun hget => ?_
    have hne : other ≠ name := fun heq => hown (hname target (heq ▸ hget))
    simp [hne]
  nonempty := h.nonempty

theorem Imported.add {done : List String} {imports : NameMap NameSet} {name path : String}
    (h : Imported symbols own done imports) (hget : symbols.get? name = some path)
    (hown : path ≠ own) : Imported symbols own (done ++ [name])
      (imports.alter path fun names? => (names?.getD ∅).add name) where
  mem_iff {target other} := by
    have hold := @h.mem_iff target other
    rw [NameMap.alter, NameMap.get?_insert, List.mem_append, List.mem_singleton]
    by_cases htarget : target = path
    · subst htarget
      have hknown : other ∈ (imports.get? target).getD ∅ ↔
          ∃ names, imports.get? target = some names ∧ other ∈ names := by
        cases imports.get? target <;> simp [NameMap.not_mem_empty]
      simp only [if_true, Option.some.injEq, exists_eq_left', NameSet.mem_add, hknown, hold]
      constructor
      · rintro (rfl | ⟨-, hother, hmem⟩)
        · exact ⟨hown, hget, Or.inr rfl⟩
        · exact ⟨hown, hother, Or.inl hmem⟩
      · rintro ⟨-, hother, hmem | rfl⟩
        · exact Or.inr ⟨hown, hother, hmem⟩
        · exact Or.inl rfl
    · rw [if_neg htarget, hold]
      refine and_congr_right fun _ => and_congr_right fun hother => ?_
      have hne : other ≠ name := by
        rintro rfl
        exact htarget (Option.some.inj (hother.symm.trans hget))
      simp [hne]
  nonempty {target names} hnames := by
    rw [NameMap.alter, NameMap.get?_insert] at hnames
    split at hnames
    · cases hnames
      exact ⟨name, NameSet.mem_add.2 (Or.inl rfl)⟩
    · exact h.nonempty hnames

theorem Imported.step {done : List String} {imports : NameMap NameSet}
    (h : Imported symbols own done imports) (name : String) :
    Imported symbols own (done ++ [name]) (addImport symbols own imports name) := by
  unfold addImport
  split
  · rename_i path hget
    split
    · rename_i hown
      exact h.skip fun target htarget => (Option.some.inj (htarget.symm.trans hget)).trans hown
    · rename_i hown
      exact h.add hget hown
  · rename_i hnone
    exact h.skip fun target htarget => by simp [hnone] at htarget

theorem Imported.run {done rest : List String} {imports : NameMap NameSet}
    (h : Imported symbols own done imports) :
    Imported symbols own (done ++ rest) (rest.foldl (addImport symbols own) imports) := by
  induction rest generalizing done imports with
  | nil => rwa [List.append_nil]
  | cons name rest ih =>
    have hrun := ih (h.step name)
    rwa [List.append_assoc, List.singleton_append] at hrun

/-- The imports of a whole file. -/
theorem imported_importsOf (symbols : NameMap String) (file : OutputFile) :
    Imported symbols file.path file.referencedNames (importsOf symbols file) := by
  rw [importsOf_eq]
  exact imported_empty.run

/-- The file at a path imports what it refers to and another file declares, and nothing else. -/
structure ImportsExactly (tree : FileTree) (path : String) (file : OutputFile) : Prop where
  mem_imports_iff : ∀ target, target ∈ file.imports ↔
    target ≠ path ∧ ∃ name, file.RefersTo name ∧ tree.symbols.get? name = some target
  mem_names_iff : ∀ target names, file.imports.get? target = some names →
    ∀ name, name ∈ names ↔ file.RefersTo name ∧ tree.symbols.get? name = some target
  declared : ∀ target names, file.imports.get? target = some names →
    ∃ other, tree.files.get? target = some other ∧ ∀ name ∈ names, other.declares name = true

/-! ## Unresolved references -/

/-- There is a finding for each leaf that refers to a name that is not held. -/
theorem length_unresolvedIn (symbols : NameMap String) (file : OutputFile) :
    (unresolvedIn symbols file).length = (file.declarations.flatMap (·.leaves)).countP
      fun leaf => leaf.referencedName?.any fun name => !symbols.contains name := by
  have hnames : (unresolvedIn symbols file).length =
      file.referencedNames.countP fun name => !symbols.contains name := by
    rw [← map_fileReferences, List.countP_map, unresolvedIn, List.length_filterMap_eq_countP]
    refine List.countP_congr fun reference _ => ?_
    cases hcontains : symbols.contains reference.2.2 <;> simp [hcontains]
  rw [hnames, OutputFile.referencedNames, List.countP_filterMap]
  refine List.countP_congr fun leaf _ => ?_
  cases leaf.referencedName? <;> simp

end FileTree

namespace Layout

variable {layout : Layout} {set : DefinitionSet} {tree placed : FileTree}

theorem Arranged.importsExactly (h : layout.Arranged set tree) {path : String} {file : OutputFile}
    (hget : tree.files.get? path = some file) : tree.ImportsExactly path file := by
  have himported := FileTree.imported_importsOf tree.symbols file
  rw [← (h.holds hget).imports, h.keyed hget] at himported
  have hnames : ∀ {target names}, file.imports.get? target = some names → ∀ name,
      name ∈ names ↔ file.RefersTo name ∧ tree.symbols.get? name = some target := by
    intro target names htarget name
    obtain ⟨first, hfirst⟩ := himported.nonempty htarget
    have hother := (himported.mem_iff.1 ⟨names, htarget, hfirst⟩).1
    have hmem := @himported.mem_iff target name
    simp only [htarget, Option.some.injEq, exists_eq_left', OutputFile.mem_referencedNames_iff]
      at hmem
    rw [hmem, and_iff_right hother, and_comm]
  refine ⟨fun target => ?_, fun target names htarget => hnames htarget,
    fun target names htarget => ?_⟩
  · rw [NameMap.mem_iff_get?]
    constructor
    · rintro ⟨names, htarget⟩
      obtain ⟨name, hname⟩ := himported.nonempty htarget
      exact ⟨(himported.mem_iff.1 ⟨names, htarget, hname⟩).1, name, (hnames htarget name).1 hname⟩
    · rintro ⟨hother, name, hrefers, hsymbol⟩
      have hdone := OutputFile.mem_referencedNames_iff.2 hrefers
      obtain ⟨names, htarget, -⟩ := himported.mem_iff.2 ⟨hother, hsymbol, hdone⟩
      exact ⟨names, htarget⟩
  · obtain ⟨name, hname⟩ := himported.nonempty htarget
    obtain ⟨d, hd, -, hpath⟩ := h.exists_of_get?_symbols ((hnames htarget name).1 hname).2
    obtain ⟨other, hother, -⟩ := h.exists_file hd
    rw [hpath] at hother
    refine ⟨other, hother, fun name hname => ?_⟩
    obtain ⟨e, he, rfl, hpath⟩ := h.exists_of_get?_symbols ((hnames htarget name).1 hname).2
    have hmem := (h.mem_declarations_iff hother).2 ⟨he, hpath⟩
    exact List.any_eq_true.2 ⟨e, hmem, beq_self_eq_true _⟩

/-- There is a finding for each leaf of the set that refers to nothing in it. -/
theorem length_unresolved_placed (hplaced : layout.place set = .ok placed) :
    placed.unresolved.length = set.leaves.countP set.isUnresolved := by
  have hfiles : placed.files.values.flatMap (·.declarations) =
      placed.withImports.files.values.flatMap (·.declarations) := by
    simp only [FileTree.withImports, NameMap.values, NameMap.mapValues, List.flatMap_map]
  have hperm : (placed.files.values.flatMap (·.declarations)).Perm set.declarations :=
    hfiles ▸ (arranged_withImports hplaced).perm_declarations
  have hheld : ∀ name, placed.symbols.contains name = set.declarations.any (·.name == name) := by
    intro name
    have hmem : placed.symbols.contains name = true ↔ _ := (placed_place hplaced).mem_symbols_iff
    rw [Bool.eq_iff_iff, hmem, List.any_eq_true]
    simp only [beq_iff_eq]
  calc placed.unresolved.length
      = (placed.files.values.map fun file => (file.declarations.flatMap (·.leaves)).countP
          fun leaf => leaf.referencedName?.any fun name => !placed.symbols.contains name).sum := by
        simp only [FileTree.unresolved, List.length_flatMap, FileTree.length_unresolvedIn]
    _ = (placed.files.values.flatMap fun file => file.declarations.flatMap (·.leaves)).countP
          set.isUnresolved := by
        rw [List.countP_flatMap]
        simp only [hheld]
        rfl
    _ = set.leaves.countP set.isUnresolved := by
        rw [← List.flatMap_assoc]
        exact (hperm.flatMap_right _).countP_eq _

/-- **Imports of a tree.** Let the declarations of a set be placed, without paths that differ by
case only. If every leaf that refers to a name refers to one of the set, imports resolve, and in
what they resolve to, as in a whole tree, each file imports exactly the names that it refers to and
another file declares, by the path of that file. If not, there is no tree but a finding for each
leaf that refers to nothing in the set. -/
theorem assemble_imports (hplaced : layout.place set = .ok placed)
    (hcase : placed.caseCollision? = none) :
    ((∀ leaf ∈ set.leaves, set.isUnresolved leaf = false) →
      ∃ resolved, placed.resolveImports = .ok resolved ∧
        (∀ path file, resolved.files.get? path = some file → resolved.ImportsExactly path file) ∧
        ∀ tree, layout.assemble set = .ok tree →
          ∀ path file, tree.files.get? path = some file → tree.ImportsExactly path file) ∧
    ((∃ leaf ∈ set.leaves, set.isUnresolved leaf = true) →
      ∃ findings, layout.assemble set = .error (.findings findings) ∧
        findings.length = set.leaves.countP set.isUnresolved) := by
  have hcount := length_unresolved_placed hplaced
  constructor
  · intro hall
    have hnone : placed.unresolved = [] := by
      rw [← List.length_eq_zero_iff, hcount, List.countP_eq_zero]
      exact fun leaf hleaf => Bool.eq_false_iff.1 (hall leaf hleaf)
    exact ⟨_, FileTree.resolveImports_of_resolved hnone,
      fun path file => (arranged_withImports hplaced).importsExactly,
      fun tree htree path file => (arranged_assemble htree).importsExactly⟩
  · intro hsome
    have hunresolved : placed.unresolved ≠ [] := by
      rw [← List.length_pos_iff, hcount, List.countP_pos_iff]
      exact hsome
    refine ⟨placed.unresolved, ?_, hcount⟩
    exact assemble_eq_error_iff.2 (Or.inr ⟨placed, hplaced, Or.inr ⟨hcase,
      Or.inl (FileTree.resolveImports_of_unresolved hunresolved)⟩⟩)

/-- A post with an author and an editor of a type that is not there. -/
def lonePost : DefinitionSet where
  types := .ofList [("Post", Samples.model "Post" [Samples.field "author" (.definition "User"),
    Samples.field "editor" (.union [.definition "User", .scalar .string])])]
  enums := ∅

theorem assemble_imports_userAndPost_lonePost :
    (∃ placed tree, byEntity.place userAndPost = .ok placed ∧ placed.caseCollision? = none ∧
      byEntity.assemble userAndPost = .ok tree ∧
        ∀ path file, tree.files.get? path = some file → tree.ImportsExactly path file) ∧
    ∃ placed findings, byEntity.place lonePost = .ok placed ∧ placed.caseCollision? = none ∧
      byEntity.assemble lonePost = .error (.findings findings) ∧ findings.length = 2 := by
  have hresolved : (byEntity.place userAndPost).map (·.caseCollision?) = .ok none := by
    decide +kernel
  have hunresolved : (byEntity.place lonePost).map (·.caseCollision?) = .ok none := by
    decide +kernel
  obtain ⟨tree, htree, -⟩ := Fallible.map_eq_ok.1 keys_userAndPost
  obtain ⟨placed, hplaced, hcase⟩ := Fallible.map_eq_ok.1 hresolved
  obtain ⟨lone, hlone, hfree⟩ := Fallible.map_eq_ok.1 hunresolved
  obtain ⟨-, -, -, hexact⟩ := (assemble_imports hplaced hcase).1 (by decide)
  obtain ⟨findings, herror, hcount⟩ := (assemble_imports hlone hfree).2 (by decide)
  have htwo : lonePost.leaves.countP lonePost.isUnresolved = 2 := by decide
  exact ⟨⟨placed, tree, hplaced, hcase, htree, hexact tree htree⟩, lone, findings, hlone, hfree,
    herror, hcount.trans htwo⟩

end Layout

end SchemaLayout
