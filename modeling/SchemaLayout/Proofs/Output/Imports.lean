import SchemaLayout.Output.Assembly
import SchemaLayout.Proofs.Schema.Validity

/-!
# Resolving references

Imports resolve when nothing is unresolved, that is when every reference of every file is to a
declared name (`resolveImports_eq_ok_iff`). The references of a valid set are all to names of the
set (`containsName_of_mem_references`), and each of those is declared (`exists_declaration_iff`).
-/
namespace SchemaLayout

/-! ## What a set declares -/

namespace DefinitionSet

variable {set : DefinitionSet}

theorem mem_declarations_iff {declaration : Declaration} : declaration ∈ set.declarations ↔
    (∃ name d, set.types.get? name = some d ∧ declaration = .definition d) ∨
      ∃ name d, set.enums.get? name = some d ∧ declaration = .enumeration d := by
  simp only [declarations, List.mem_append, List.mem_map, NameMap.mem_values_iff]
  refine or_congr ⟨?_, ?_⟩ ⟨?_, ?_⟩
  · rintro ⟨d, ⟨name, hget⟩, rfl⟩
    exact ⟨name, d, hget, rfl⟩
  · rintro ⟨name, d, hget, rfl⟩
    exact ⟨d, ⟨name, hget⟩, rfl⟩
  · rintro ⟨d, ⟨name, hget⟩, rfl⟩
    exact ⟨name, d, hget, rfl⟩
  · rintro ⟨name, d, hget, rfl⟩
    exact ⟨d, ⟨name, hget⟩, rfl⟩

theorem declarations_eq_nil_iff : set.declarations = [] ↔ set.isEmpty = true := by
  simp [declarations, isEmpty, NameMap.values, NameMap.isEmpty]

theorem exists_declaration_iff (hset : set.Keyed) {name : String} :
    (∃ declaration ∈ set.declarations, declaration.name = name) ↔
      set.containsName name = true := by
  simp only [containsName_iff, NameMap.mem_iff_get?, mem_declarations_iff]
  constructor
  · rintro ⟨declaration, ⟨key, d, hget, rfl⟩ | ⟨key, d, hget, rfl⟩, rfl⟩
    · obtain rfl : d.name = key := hset.types hget
      exact Or.inl ⟨d, hget⟩
    · obtain rfl : d.name = key := hset.enums hget
      exact Or.inr ⟨d, hget⟩
  · rintro (⟨d, hget⟩ | ⟨d, hget⟩)
    · exact ⟨_, Or.inl ⟨name, d, hget, rfl⟩, hset.types hget⟩
    · exact ⟨_, Or.inr ⟨name, d, hget, rfl⟩, hset.enums hget⟩

/-- Declarations of a valid set refer to names of the set only. -/
theorem containsName_of_mem_references (hset : set.Valid) {declaration : Declaration}
    (hmem : declaration ∈ set.declarations) {reference : String × String}
    (href : reference ∈ declaration.references) : set.containsName reference.2 = true := by
  rcases mem_declarations_iff.1 hmem with ⟨name, d, hget, rfl⟩ | ⟨name, d, -, rfl⟩
  · obtain ⟨field, hfield, hnames⟩ := List.mem_flatMap.1 href
    obtain ⟨target, htarget, rfl⟩ := List.mem_map.1 hnames
    obtain ⟨leaf, hleaf, hname⟩ := List.mem_filterMap.1 htarget
    have hresolved : set.resolves leaf = true :=
      hset.resolved hget leaf (TypeDefinition.mem_leaves_iff.2 ⟨field, hfield, hleaf⟩)
    exact containsName_of_referencedName? hresolved hname
  · cases href

end DefinitionSet

/-! ## Imports -/

namespace FileTree

variable {tree result : FileTree}

/-- The tree with the imports of every file, resolved or not. -/
def withImports (tree : FileTree) : FileTree :=
  { tree with
    files := tree.files.mapValues fun _ file =>
      { file with imports := importsOf tree.symbols file } }

theorem unresolvedIn_eq_nil_iff {symbols : NameMap String} {file : OutputFile} :
    unresolvedIn symbols file = [] ↔
      ∀ d ∈ file.declarations, ∀ reference ∈ d.references, reference.2 ∈ symbols := by
  have hfinding : ∀ {target : String} {finding : Finding},
      (if symbols.contains target then none else some finding) = none ↔ target ∈ symbols := by
    intro target finding
    have hmem : target ∈ symbols ↔ symbols.contains target = true := Iff.rfl
    cases hcontains : symbols.contains target <;> simp [hmem, hcontains]
  unfold unresolvedIn fileReferences
  simp only [List.filterMap_eq_nil_iff, List.mem_flatMap, List.mem_map, hfinding]
  constructor
  · intro h d hd reference href
    exact h (d.name, reference.1, reference.2) ⟨d, hd, reference, href, rfl⟩
  · rintro h _ ⟨d, hd, reference, href, rfl⟩
    exact h d hd reference href

/-- A finding for each reference to a name that no file declares. -/
def unresolved (tree : FileTree) : List Finding :=
  tree.files.values.flatMap (unresolvedIn tree.symbols)

theorem resolveImports_of_unresolved {tree : FileTree} (h : tree.unresolved ≠ []) :
    tree.resolveImports = .error (.findings tree.unresolved) := if_pos h

theorem resolveImports_of_resolved {tree : FileTree} (h : tree.unresolved = []) :
    tree.resolveImports = .ok tree.withImports := if_neg (not_not.2 h)

theorem unresolved_eq_nil_iff : tree.unresolved = [] ↔
    ∀ path file, tree.files.get? path = some file →
      ∀ d ∈ file.declarations, ∀ reference ∈ d.references, reference.2 ∈ tree.symbols := by
  simp only [unresolved, List.flatMap_eq_nil_iff, unresolvedIn_eq_nil_iff, NameMap.mem_values_iff]
  exact ⟨fun h path file hget => h file ⟨path, hget⟩, fun h file ⟨path, hget⟩ => h path file hget⟩

/-- Imports resolve when every reference of every file is to a declared name. -/
theorem resolveImports_eq_ok_iff : tree.resolveImports = .ok result ↔
    (∀ path file, tree.files.get? path = some file →
      ∀ d ∈ file.declarations, ∀ reference ∈ d.references, reference.2 ∈ tree.symbols) ∧
        tree.withImports = result := by
  rw [← unresolved_eq_nil_iff]
  by_cases hnone : tree.unresolved = []
  · rw [resolveImports_of_resolved hnone, Except.ok.injEq, and_iff_right hnone]
  · rw [resolveImports_of_unresolved hnone]
    simp [hnone]

/-- Imports change neither where a file is nor what it is for. -/
theorem get?_withImports {path : String} {file : OutputFile} :
    tree.withImports.files.get? path = some file ↔ ∃ old, tree.files.get? path = some old ∧
      { old with imports := importsOf tree.symbols old } = file := by
  unfold withImports
  rw [NameMap.get?_mapValues, Option.map_eq_some_iff]

end FileTree

end SchemaLayout
