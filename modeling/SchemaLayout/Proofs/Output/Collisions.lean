import SchemaLayout.Proofs.Output.Declarations
import SchemaLayout.Proofs.Output.PlainPaths
import SchemaLayout.Proofs.Output.PlannedFiles

/-!
# Which paths collide

Assembling looks for collisions when it places a declaration, behind the placement of all, when it
adds an index and behind the last index. `Collides` says what of the declarations and the requested
indexes is in the way of a tree, whichever check meets it first. Every check that fails finds such a
collision, and where there is none every check passes (`exists_tree_of_not_collides`).

**Result.** `assemble_collision_iff`: a valid set fails with a path collision exactly when its paths
collide, and no two paths of a tree differ by case only.
-/
namespace SchemaLayout

theorem FileTree.caseCollision?_eq_none_iff {tree : FileTree} : tree.caseCollision? = none ↔
    ∀ a ∈ tree.files, ∀ b ∈ tree.files, Text.lower a = Text.lower b → a = b := by
  unfold caseCollision?
  rw [Option.map_eq_none_iff, firstRepeat?_eq_none_iff,
    List.nodup_map_iff_inj_on tree.files.nodup_keys]
  simp only [NameMap.mem_keys_iff]

namespace Layout

variable {config : Config} {layout : Layout} {set : DefinitionSet} {tree : FileTree}

def Given (layout : Layout) (set : DefinitionSet) (path : String) : Prop :=
  ∃ d ∈ set.declarations, layout.pathFor d = path

def Requests (layout : Layout) (set : DefinitionSet) (path : String) : Prop :=
  Index.Requested (layout.Given set) layout.reExport layout.indexFile path

/-- Two of the paths that a tree of the set is to have are in each other's way. -/
inductive Collides (layout : Layout) (set : DefinitionSet) : Prop
  /-- Two declarations that do not share files have one path. -/
  | shared {d e : Declaration} (groups : layout.groups = false) (left : d ∈ set.declarations)
      (right : e ∈ set.declarations) (ne : d ≠ e) (path : layout.pathFor d = layout.pathFor e)
  /-- An index is to go where a declaration is. -/
  | taken {path : String} (given : layout.Given set path) (requested : layout.Requests set path)
  /-- Two paths differ by case only. -/
  | case {a b : String} (left : layout.Given set a ∨ layout.Requests set a)
      (right : layout.Given set b ∨ layout.Requests set b) (ne : a ≠ b)
      (lower : Text.lower a = Text.lower b)

/-! ## The paths of each stage -/

theorem requested_withImports {placed : FileTree} (hplaced : layout.place set = .ok placed)
    {path : String} : Index.Requested (· ∈ placed.withImports.files) layout.reExport
      layout.indexFile path ↔ layout.Requests set path := by
  simp only [Requests, Index.Requested, mem_files_withImports hplaced, Given]

section Stages

variable (hlayout : ofConfig config = .ok layout)
include hlayout

theorem not_requests_of_emitSingle (hsingle : layout.emitSingle = true) {path : String} :
    ¬layout.Requests set path := by
  have hmode : layout.reExport = .none := by
    obtain ⟨pattern, -, rfl⟩ := ofConfig_eq_ok hlayout
    exact if_pos hsingle
  simp [Requests, Index.Requested, hmode, ReExportMode.hasRootIndex,
    ReExportMode.hasDirectoryIndexes]

/-- Everything goes into a single file, so nothing is in its way. -/
theorem not_collides_of_emitSingle (hsingle : layout.emitSingle = true) :
    ¬layout.Collides set := by
  have hnone : ∀ {path}, ¬layout.Requests set path := not_requests_of_emitSingle hlayout hsingle
  have hpath : ∀ {path}, layout.Given set path → path = layout.indexFile := by
    rintro path ⟨d, -, rfl⟩
    exact if_pos hsingle
  rintro (⟨hgroups, -, -, -, -⟩ | ⟨-, hrequested⟩ | ⟨ha, hb, hne, -⟩)
  · rw [groups, hsingle] at hgroups
    cases hgroups
  · exact hnone hrequested
  · refine hne ?_
    rw [hpath (ha.resolve_right hnone), hpath (hb.resolve_right hnone)]

variable {placed : FileTree} (hplaced : layout.place set = .ok placed)
include hplaced

/-- The indexes are added unless one is to go where a declaration is. -/
theorem exists_addIndexes_iff : (∃ indexed, layout.addIndexes placed.withImports = .ok indexed) ↔
    ∀ path, layout.Given set path → ¬layout.Requests set path := by
  have hfiles := declarationFiles_placed hplaced
  unfold addIndexes
  by_cases hsingle : layout.emitSingle = true
  · rw [if_pos hsingle]
    exact iff_of_true ⟨_, rfl⟩ fun _ _ => not_requests_of_emitSingle hlayout hsingle
  · rw [if_neg hsingle]
    constructor
    · rintro ⟨indexed, hindexed⟩ path hgiven hrequested
      obtain ⟨files, hplanned, -⟩ := Fallible.map_eq_ok.1 hindexed
      have hrequested := (requested_withImports hplaced).2 hrequested
      exact Index.not_mem_of_requested hfiles hplanned hrequested
        ((mem_files_withImports hplaced).2 hgiven)
    · intro hfree
      cases hplanned : planIndexes placed.withImports.files layout.reExport layout.indexFile with
      | ok files => exact ⟨_, rfl⟩
      | error cause =>
        have hname := (isSegment_indexFile hlayout).1
        obtain ⟨path, file, hget, hrequested, -⟩ := Index.taken_of_error hfiles hname hplanned
        exact absurd ((requested_withImports hplaced).1 hrequested)
          (hfree path ((mem_files_withImports hplaced).1 (NameMap.mem_of_get? hget)))

theorem mem_files_addIndexes {indexed : FileTree}
    (hindexed : layout.addIndexes placed.withImports = .ok indexed) {path : String} :
    path ∈ indexed.files ↔ layout.Given set path ∨ layout.Requests set path := by
  unfold addIndexes at hindexed
  by_cases hsingle : layout.emitSingle = true
  · rw [if_pos hsingle] at hindexed
    cases hindexed
    rw [or_iff_left (not_requests_of_emitSingle hlayout hsingle)]
    exact mem_files_withImports hplaced
  · rw [if_neg hsingle] at hindexed
    obtain ⟨files, hplanned, rfl⟩ := Fallible.map_eq_ok.1 hindexed
    have hcompleted := Index.completed_planIndexes (declarationFiles_placed hplaced) hplanned
      (isSegment_indexFile hlayout).1
    rw [hcompleted.mem_iff, mem_files_withImports hplaced, requested_withImports hplaced, Given]

end Stages

/-! ## Trees and collisions -/

/-- A tree has the paths of the declarations and the requested ones. -/
theorem mem_files_assemble (hlayout : ofConfig config = .ok layout)
    (h : layout.assemble set = .ok tree) {path : String} :
    path ∈ tree.files ↔ layout.Given set path ∨ layout.Requests set path := by
  obtain ⟨placed, resolved, indexed, hplaced, -, hresolved, hindexed, -, -, rfl⟩ :=
    assemble_eq_ok_iff.1 h
  obtain ⟨-, rfl⟩ := FileTree.resolveImports_eq_ok_iff.1 hresolved
  rw [← mem_files_addIndexes hlayout hplaced hindexed, NameMap.mem_iff_get?, NameMap.mem_iff_get?]
  simp only [FileTree.get?_fillSpecifiers]
  exact ⟨fun ⟨_, old, hold, _⟩ => ⟨old, hold⟩, fun ⟨old, hold⟩ => ⟨_, old, hold, rfl⟩⟩

theorem eq_of_lower_eq (h : layout.assemble set = .ok tree) {a b : String} (ha : a ∈ tree.files)
    (hb : b ∈ tree.files) (hlower : Text.lower a = Text.lower b) : a = b := by
  obtain ⟨placed, resolved, indexed, -, -, -, -, hcase, -, rfl⟩ := assemble_eq_ok_iff.1 h
  have hold : ∀ {path}, path ∈ (indexed.fillSpecifiers layout.pattern.extension).files →
      path ∈ indexed.files := by
    intro path hpath
    obtain ⟨file, hget⟩ := NameMap.mem_iff_get?.1 hpath
    obtain ⟨old, hold, -⟩ := FileTree.get?_fillSpecifiers.1 hget
    exact NameMap.mem_of_get? hold
  exact FileTree.caseCollision?_eq_none_iff.1 hcase a (hold ha) b (hold hb) hlower

theorem not_collides_of_assemble (hlayout : ofConfig config = .ok layout)
    (h : layout.assemble set = .ok tree) : ¬layout.Collides set := by
  obtain ⟨placed, resolved, indexed, hplaced, -, hresolved, hindexed, -, -, -⟩ :=
    assemble_eq_ok_iff.1 h
  obtain ⟨-, rfl⟩ := FileTree.resolveImports_eq_ok_iff.1 hresolved
  rintro (⟨hgroups, hd, he, hne, hpath⟩ | ⟨hgiven, hrequested⟩ | ⟨ha, hb, hne, hlower⟩)
  · exact hne (List.inj_on_of_nodup_map (nodup_paths_of_place hgroups hplaced) hd he hpath)
  · exact (exists_addIndexes_iff hlayout hplaced).1 ⟨indexed, hindexed⟩ _ hgiven hrequested
  · exact hne (eq_of_lower_eq h ((mem_files_assemble hlayout h).2 ha)
      ((mem_files_assemble hlayout h).2 hb) hlower)

theorem exists_tree_of_not_collides (hlayout : ofConfig config = .ok layout) (hset : set.Valid)
    (hsome : layout.emitSingle = true → set.isEmpty = false) (h : ¬layout.Collides set) :
    ∃ tree, layout.assemble set = .ok tree := by
  have hnames := DefinitionSet.nodup_names_declarations hset.toKeyed
  obtain ⟨placed, hplaced⟩ := exists_place_iff.2 fun hgroups => by
    refine List.Nodup.map_on (fun d hd e he hpath => ?_) hnames.of_map
    by_contra hne
    exact h (.shared hgroups hd he hne hpath)
  have hcase : placed.caseCollision? = none := by
    refine FileTree.caseCollision?_eq_none_iff.2 fun a ha b hb hlower => ?_
    by_contra hne
    exact h (.case (.inl ((placed_place hplaced).mem_files_iff.1 ha))
      (.inl ((placed_place hplaced).mem_files_iff.1 hb)) hne hlower)
  obtain ⟨indexed, hindexed⟩ := (exists_addIndexes_iff hlayout hplaced).2
    fun path hgiven hrequested => h (.taken hgiven hrequested)
  have hfinal : indexed.caseCollision? = none := by
    refine FileTree.caseCollision?_eq_none_iff.2 fun a ha b hb hlower => ?_
    by_contra hne
    exact h (.case ((mem_files_addIndexes hlayout hplaced hindexed).1 ha)
      ((mem_files_addIndexes hlayout hplaced hindexed).1 hb) hne hlower)
  exact ⟨_, assemble_eq_ok_iff.2 ⟨placed, _, indexed, hplaced, hcase,
    resolveImports_placed hset hplaced, hindexed, hfinal, fault?_addIndexes hplaced hindexed hsome,
    rfl⟩⟩

/-- **Path collisions.** With a layout of a configuration, a set that validation accepts fails with
a path collision exactly when two of the paths that its tree is to have are in each other's way. No
two paths of a tree differ by case only. -/
theorem assemble_collision_iff (hlayout : ofConfig config = .ok layout)
    (hset : set.validate = .ok ()) :
    ((∃ path first second, layout.assemble set = .error (.pathCollision path first second)) ↔
      layout.Collides set) ∧
    ∀ tree, layout.assemble set = .ok tree →
      (∀ path, path ∈ tree.files ↔ layout.Given set path ∨ layout.Requests set path) ∧
        ∀ a ∈ tree.files, ∀ b ∈ tree.files, Text.lower a = Text.lower b → a = b := by
  have hvalid := DefinitionSet.validate_eq_ok_iff.1 hset
  refine ⟨⟨?_, ?_⟩, fun tree htree => ⟨fun path => mem_files_assemble hlayout htree,
    fun a ha b hb => eq_of_lower_eq htree ha hb⟩⟩
  · rintro ⟨path, first, second, herror⟩
    by_contra hnone
    have hsome : layout.emitSingle = true → set.isEmpty = false := by
      intro hsingle
      by_contra hempty
      rw [assemble_single_of_isEmpty hsingle (Bool.eq_true_of_not_eq_false hempty)] at herror
      cases herror
    obtain ⟨tree, htree⟩ := exists_tree_of_not_collides hlayout hvalid hsome hnone
    cases htree.symm.trans herror
  · intro hcollides
    have hsome : layout.emitSingle = true → set.isEmpty = false :=
      fun hsingle => absurd hcollides (not_collides_of_emitSingle hlayout hsingle)
    rcases assemble_outcome hvalid hsome with ⟨tree, htree⟩ | herror
    · exact absurd hcollides (not_collides_of_assemble hlayout htree)
    · exact herror

/-- A model of an entity and a shared one. -/
def postAndAudit : DefinitionSet where
  types := .ofList [("Audit", ⟨"Audit", .model, [], none⟩),
    ("Post", ⟨"Post", .model, [], some "Post"⟩)]
  enums := ∅

/-- A directory for each entity; that of what is shared differs from one by case only. -/
def sharedAsPost : Config :=
  { Config.default with pattern := "{model}/{type}.ts", sharedDirectory := "Post" }

def postDirectories : Layout where
  pattern := ⟨[.token .model, .literal "/", .token .kind, .literal ".ts"]⟩
  reExport := sharedAsPost.reExport
  emitSingle := false
  sharedDirectory := "Post"
  indexFile := "index.ts"

theorem assemble_collision_postAndAudit : ofConfig sharedAsPost = .ok postDirectories ∧
    postAndAudit.validate = .ok () ∧ postDirectories.Collides postAndAudit ∧
      ∃ path first second,
        postDirectories.assemble postAndAudit = .error (.pathCollision path first second) := by
  have hlayout : ofConfig sharedAsPost = .ok postDirectories := by decide +kernel
  have hset : postAndAudit.validate = .ok () := by decide
  have hgiven : ∀ path ∈ postAndAudit.declarations.map postDirectories.pathFor,
      postDirectories.Given postAndAudit path := fun path hpath => List.mem_map.1 hpath
  have hpaths : postAndAudit.declarations.map postDirectories.pathFor =
      ["Post/model.ts", "post/model.ts"] := by decide +kernel
  rw [hpaths] at hgiven
  have hcollides : postDirectories.Collides postAndAudit :=
    .case (.inl (hgiven "Post/model.ts" (by decide))) (.inl (hgiven "post/model.ts" (by decide)))
      (by decide) (by decide +kernel)
  exact ⟨hlayout, hset, hcollides, (assemble_collision_iff hlayout hset).1.2 hcollides⟩

end Layout

end SchemaLayout
