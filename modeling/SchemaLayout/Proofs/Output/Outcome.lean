import SchemaLayout.Generator
import SchemaLayout.Proofs.Output.Assembly
import SchemaLayout.Proofs.Pipeline.Settling
import SchemaLayout.Samples

/-!
# What a run ends in

For a valid set every reference names a declaration, so imports resolve (`resolveImports_placed`),
and the indexes are as they should be (`fault?_addIndexes`), so what is left to fail are paths
(`assemble_eq_of_valid`). A single file is its own root; it is not there when there is nothing to
declare (`assemble_single_of_isEmpty`).

* `generate_outcome`: with a layout and a result of the passes, a run gives a tree or reports a path
  collision, but for a single file of an empty set, which is reported as unreachable.
-/
namespace SchemaLayout

/-! ## Imports and indexes -/

namespace Layout

variable {layout : Layout} {set : DefinitionSet} {placed resolved indexed : FileTree}

theorem resolveImports_placed (hset : set.Valid) (hplaced : layout.place set = .ok placed) :
    placed.resolveImports = .ok placed.withImports := by
  have hfiles := placed_place hplaced
  refine FileTree.resolveImports_eq_ok_iff.2 ⟨fun path file hget d hd reference href => ?_, rfl⟩
  have hname := DefinitionSet.containsName_of_mem_references hset
    (hfiles.mem_of_mem_declarations hget hd) href
  exact hfiles.mem_symbols_iff.2 ((DefinitionSet.exists_declaration_iff hset.toKeyed).2 hname)

theorem linked_of_only_file {root : String} (hfiles : DeclarationFiles indexed.files)
    (hroot : indexed.rootIndex? = some root) (honly : ∀ path, path ∈ indexed.files ↔ path = root) :
    indexed.Linked := by
  have hnone : ∀ {a b}, ¬indexed.ReExports a b := by
    intro a b hab
    obtain ⟨file, hget, hindex, -⟩ := (FileTree.reExports_iff hfiles.keyed).1 hab
    rw [hfiles.declares hget] at hindex
    cases hindex
  refine ⟨fun hab => absurd hab hnone, fun hcycle => ?_, fun hsome => ?_⟩
  · obtain ⟨next, hnext, -⟩ := Relation.TransGen.head'_iff.1 hcycle
    exact hnone hnext
  · cases hroot.symm.trans hsome
    refine ⟨(honly root).2 rfl, fun hget _ => ?_⟩
    rw [(honly _).1 (NameMap.mem_of_get? hget)]

/-- The indexes of a set with something to declare, and those of a layout of many files, are as they
should be. -/
theorem fault?_addIndexes (hplaced : layout.place set = .ok placed)
    (hindexed : layout.addIndexes placed.withImports = .ok indexed)
    (hsome : layout.emitSingle = true → set.isEmpty = false) : indexed.fault? = none := by
  have hfiles := declarationFiles_placed hplaced
  unfold addIndexes at hindexed
  by_cases hsingle : layout.emitSingle = true
  · rw [if_pos hsingle] at hindexed
    cases hindexed
    have hpath : ∀ d, layout.pathFor d = layout.indexFile := fun d => if_pos hsingle
    have hne : set.declarations ≠ [] := by
      rw [Ne, DefinitionSet.declarations_eq_nil_iff, hsome hsingle]
      exact Bool.false_ne_true
    obtain ⟨first, hfirst⟩ := List.exists_mem_of_ne_nil _ hne
    have honly : ∀ path, path ∈ placed.withImports.files ↔ path = layout.indexFile := by
      intro path
      rw [mem_files_withImports hplaced]
      simp only [hpath]
      exact ⟨fun ⟨_, _, h⟩ => h.symm, fun h => ⟨first, hfirst, h.symm⟩⟩
    refine (FileTree.fault?_eq_none_iff ?_).2 (linked_of_only_file hfiles rfl honly)
    exact hfiles.keyed
  · rw [if_neg hsingle] at hindexed
    obtain ⟨files, hplanned, rfl⟩ := Fallible.map_eq_ok.1 hindexed
    exact (FileTree.fault?_eq_none_iff (Index.keyed_planIndexes hfiles hplanned)).2
      (Index.linked_planIndexes hfiles hplanned)

theorem addIndexes_eq_error {cause : OutputError}
    (h : layout.addIndexes resolved = .error cause) :
    ∃ path first second, cause = .pathCollision path first second := by
  unfold addIndexes at h
  split at h
  · cases h
  · cases hplanned : planIndexes resolved.files layout.reExport layout.indexFile with
    | ok files =>
      rw [hplanned] at h
      cases h
    | error other =>
      rw [hplanned] at h
      cases h
      refine Fallible.foldlM_fails (Q := fun cause => ∃ path first second,
        cause = .pathCollision path first second) (fun {files index cause} hstep => ?_) hplanned
      unfold Index.place at hstep
      split at hstep
      · cases hstep
        exact ⟨_, _, _, rfl⟩
      · cases hstep

/-! ## What assembling ends in -/

/-- A single file of nothing is not there. -/
theorem assemble_single_of_isEmpty (hsingle : layout.emitSingle = true)
    (hempty : set.isEmpty = true) :
    layout.assemble set = .error (.unreachable "" layout.indexFile layout.indexFile) := by
  have hplaced : layout.place set = .ok .empty := by
    unfold place
    rw [DefinitionSet.declarations_eq_nil_iff.2 hempty]
    rfl
  have hindexed : layout.addIndexes .empty
      = .ok { FileTree.empty with rootIndex? := some layout.indexFile } := if_pos hsingle
  exact assemble_eq_error_iff.2 (Or.inr ⟨.empty, hplaced, Or.inr ⟨rfl, Or.inr ⟨.empty, rfl,
    Or.inr ⟨_, hindexed, Or.inr ⟨rfl, rfl⟩⟩⟩⟩⟩)

/-- For a valid set, imports resolve and verification passes, so what is left to check are paths. -/
theorem assemble_eq_of_valid (hset : set.Valid)
    (hsome : layout.emitSingle = true → set.isEmpty = false) : layout.assemble set = (do
      let placed ← layout.place set
      refuse placed.caseCollision?
      let indexed ← layout.addIndexes placed.withImports
      refuse indexed.caseCollision?
      return indexed.fillSpecifiers layout.pattern.extension) := by
  unfold assemble
  cases hplaced : layout.place set with
  | error cause => rfl
  | ok placed =>
    have hresolved := resolveImports_placed hset hplaced
    simp only [bind, Except.bind, hresolved]
    cases hindexed : layout.addIndexes placed.withImports with
    | error cause => rfl
    | ok indexed =>
      simp only [fault?_addIndexes hplaced hindexed hsome]
      rfl

theorem assemble_outcome (hset : set.Valid)
    (hsome : layout.emitSingle = true → set.isEmpty = false) :
    (∃ tree, layout.assemble set = .ok tree) ∨
      ∃ path first second, layout.assemble set = .error (.pathCollision path first second) := by
  cases hresult : layout.assemble set with
  | ok tree => exact Or.inl ⟨tree, rfl⟩
  | error cause =>
    have hcollision : ∃ path first second, cause = .pathCollision path first second := by
      rw [assemble_eq_of_valid hset hsome] at hresult
      simp only [Fallible.bind_eq_error, refuse_eq_ok_iff, refuse_eq_error_iff, exists_const, pure,
        Except.pure, reduceCtorEq, and_false, or_false] at hresult
      rcases hresult with hplace | ⟨placed, -, hcase | ⟨-, hindexes | ⟨indexed, -, hcase⟩⟩⟩
      · exact place_eq_error hplace
      · exact FileTree.caseCollision?_eq_some hcase
      · exact addIndexes_eq_error hindexes
      · exact FileTree.caseCollision?_eq_some hcase
    obtain ⟨path, first, second, rfl⟩ := hcollision
    exact Or.inr ⟨path, first, second, rfl⟩

end Layout

/-! ## What a run ends in -/

namespace Config

variable {config : Config} {set : DefinitionSet} {layout : Layout} {result : Transformed}

theorem generate_eq (hlayout : Layout.ofConfig config = .ok layout)
    (hresult : config.transform set = .ok result) :
    config.generate set = (layout.assemble result.set).map fun tree =>
      { tree, report := result.report } := by
  unfold generate
  rw [hlayout, hresult]
  cases hassembled : layout.assemble result.set with
  | ok tree => simp [bind, Except.bind, Except.mapError, Except.map, pure, Except.pure, hassembled]
  | error cause =>
    simp [bind, Except.bind, Except.mapError, Except.map, hassembled]

/-- **What a run ends in.** With a layout and a result of the passes, a run gives a tree or reports
two paths that collide. The one exception is a single file of a set without definitions, which is
reported as a root that is not reached. -/
theorem generate_outcome (hlayout : Layout.ofConfig config = .ok layout)
    (hresult : config.transform set = .ok result) :
    (¬(config.emitSingle = true ∧ result.set.isEmpty = true) →
      (∃ generated, config.generate set = .ok generated) ∨
        ∃ path first second, config.generate set = .error (.pathCollision path first second)) ∧
    (config.emitSingle = true ∧ result.set.isEmpty = true →
      config.generate set = .error (.unreachable "" layout.indexFile layout.indexFile)) := by
  rw [generate_eq hlayout hresult]
  constructor
  · intro hsome
    rw [not_and, Bool.not_eq_true, ← Layout.emitSingle_ofConfig hlayout] at hsome
    rcases layout.assemble_outcome (valid_transform hresult) hsome with
      ⟨tree, hok⟩ | ⟨path, first, second, herror⟩
    · rw [hok]
      exact Or.inl ⟨_, rfl⟩
    · rw [herror]
      exact Or.inr ⟨path, first, second, rfl⟩
  · rintro ⟨hsingle, hempty⟩
    rw [← Layout.emitSingle_ofConfig hlayout] at hsingle
    rw [layout.assemble_single_of_isEmpty hsingle hempty]
    rfl

/-- Users and posts that refer to each other, a query with a reserved name, and a filter twice. -/
def usersAndPosts : DefinitionSet where
  types := .ofList
    [("Post", Samples.model "Post" [Samples.field "author" (.definition "User")]),
      ("PostFilter", Samples.inputOf "Post" "PostFilter"
        [Samples.optional "role" (.enumeration "Role")]),
      ("Query", ⟨"Query", .output, [Samples.many (Samples.field "posts" (.definition "Post")),
        Samples.optional "filter" (.definition "UserFilter")], none⟩),
      ("User", Samples.model "User" [Samples.field "role" (.enumeration "Role"),
        Samples.many (Samples.field "posts" (.definition "Post"))]),
      ("UserFilter", Samples.inputOf "User" "UserFilter"
        [Samples.optional "role" (.enumeration "Role")])]
  enums := .ofList [("Role", ⟨"Role", ["USER", "ADMIN"]⟩)]

/-- The same behind the passes: the query has a new name and there is one filter. -/
def passedUsersAndPosts : DefinitionSet where
  types := .ofList
    [("Post", Samples.model "Post" [Samples.field "author" (.definition "User")]),
      ("PostFilter", Samples.inputOf "Post" "PostFilter"
        [Samples.optional "role" (.enumeration "Role")]),
      ("QueryType", ⟨"QueryType", .output,
        [Samples.many (Samples.field "posts" (.definition "Post")),
          Samples.optional "filter" (.definition "PostFilter")], none⟩),
      ("User", Samples.model "User" [Samples.field "role" (.enumeration "Role"),
        Samples.many (Samples.field "posts" (.definition "Post"))])]
  enums := .ofList [("Role", ⟨"Role", ["USER", "ADMIN"]⟩)]

/-- A file for each definition in a directory for each entity, with all indexes. -/
def defaultLayout : Layout where
  pattern := ⟨[.token .model, .literal "/", .token .name, .literal ".", .token .kind,
    .literal ".ts"]⟩
  reExport := .all
  emitSingle := false
  sharedDirectory := "prisma"
  indexFile := "index.ts"

/-- Their declarations, each in its file. -/
def placedUsersAndPosts : FileTree :=
  (defaultLayout.place passedUsersAndPosts).toOption.getD .empty

theorem ofDirectories_usersAndPosts :
    Index.ofDirectories (Index.exports placedUsersAndPosts.withImports.files) "index.ts" =
      ["post", "prisma", "user"].foldl
        (Index.addIndex (Index.exports placedUsersAndPosts.withImports.files) "index.ts") ∅ := by
  have hdirectories :
      (Index.directories (Index.exports placedUsersAndPosts.withImports.files)).toList =
        ["post", "prisma", "user"] := by
    decide +kernel
  have hsorted : Index.deepestFirst ["post", "prisma", "user"] = ["post", "prisma", "user"] :=
    List.mergeSort_of_pairwise (by decide)
  rw [Index.ofDirectories, hdirectories, hsorted]

theorem keys_usersAndPosts : (defaultLayout.assemble passedUsersAndPosts).map (·.files.keys) =
    .ok ["index.ts", "post/index.ts", "post/post-filter.input.ts", "post/post.model.ts",
      "prisma/index.ts", "prisma/query-type.output.ts", "prisma/role.enum.ts", "user/index.ts",
      "user/user.model.ts"] := by
  have hvalid : passedUsersAndPosts.Valid :=
    DefinitionSet.validate_eq_ok_iff.1 (by decide +kernel)
  have hplaced : defaultLayout.place passedUsersAndPosts = .ok placedUsersAndPosts := by
    decide +kernel
  rw [Layout.assemble_eq_of_valid hvalid fun hsingle => absurd hsingle Bool.false_ne_true, hplaced]
  simp only [bind, Except.bind, Layout.addIndexes, planIndexes, Index.planned, defaultLayout,
    ofDirectories_usersAndPosts]
  decide +kernel

theorem generate_outcome_usersAndPosts : ∃ result generated,
    Layout.ofConfig renamingAndFolding = .ok defaultLayout ∧
    renamingAndFolding.transform usersAndPosts = .ok result ∧
    result.set = passedUsersAndPosts ∧
    renamingAndFolding.generate usersAndPosts = .ok generated ∧
    generated.tree.files.keys =
      ["index.ts", "post/index.ts", "post/post-filter.input.ts", "post/post.model.ts",
        "prisma/index.ts", "prisma/query-type.output.ts", "prisma/role.enum.ts", "user/index.ts",
        "user/user.model.ts"] := by
  have hlayout : Layout.ofConfig renamingAndFolding = .ok defaultLayout := by decide +kernel
  have hpassed : (renamingAndFolding.transform usersAndPosts).map (·.set) =
      .ok passedUsersAndPosts := by decide +kernel
  obtain ⟨result, hresult, hset⟩ := Fallible.map_eq_ok.1 hpassed
  obtain ⟨tree, htree, hkeys⟩ := Fallible.map_eq_ok.1 keys_usersAndPosts
  have hrun : renamingAndFolding.generate usersAndPosts = .ok ⟨tree, result.report⟩ := by
    rw [generate_eq hlayout hresult, hset, htree]
    rfl
  rcases (generate_outcome hlayout hresult).1 fun hsingle => Bool.false_ne_true hsingle.1 with
    ⟨generated, hok⟩ | ⟨path, first, second, hcollision⟩
  · cases hrun.symm.trans hok
    exact ⟨result, _, hlayout, hresult, hset, hok, hkeys⟩
  · cases hrun.symm.trans hcollision

def singleFile : Config := { Config.default with emitSingle := true }

/-- A run on nothing, into a single file, ends in neither a tree nor a collision. -/
theorem generate_empty_singleFile : (Layout.ofConfig singleFile).toOption.isSome = true ∧
    singleFile.transform ∅ = .ok ⟨∅, .empty⟩ ∧
    singleFile.generate ∅ = .error (.unreachable "" "index.ts" "index.ts") := by
  decide +kernel

end Config

end SchemaLayout
