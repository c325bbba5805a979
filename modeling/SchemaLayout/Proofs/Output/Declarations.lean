import SchemaLayout.Proofs.Output.Arrangement
import SchemaLayout.Proofs.Output.Outcome
import SchemaLayout.Samples

/-!
# Where declarations are

In an assembled tree each declaration of the set is in one file, the one at its path, and every
other file is an index. Names say where declarations are (`get?_symbols`) as long as no two
declarations have one name, as is the case for every set that is keyed (`nodup_names_declarations`).
Where declarations do not share files, no two of them have one path (`Layout.nodup_paths_of_place`).

* `assemble_declarations`: what a tree has of the declarations of its set.
-/
namespace SchemaLayout

theorem OutputFile.isIndex_iff_role {file : OutputFile} :
    file.isIndex = true ↔ file.role = .index := beq_iff_eq

theorem OutputFile.isIndex_eq_false_iff_role {file : OutputFile} :
    file.isIndex = false ↔ file.role = .declarations := by
  rw [← Bool.not_eq_true, isIndex_iff_role]
  cases file.role <;> simp

namespace DefinitionSet

variable {set : DefinitionSet}

theorem nodup_names_declarations (hset : set.Keyed) : (set.declarations.map (·.name)).Nodup := by
  have hnames : set.declarations.map (·.name) = set.types.keys ++ set.enums.keys := by
    unfold declarations
    rw [List.map_append, List.map_map, List.map_map]
    exact congrArg₂ _ (NameMap.map_values_eq_keys hset.types)
      (NameMap.map_values_eq_keys hset.enums)
  rw [hnames, List.nodup_append]
  refine ⟨set.types.nodup_keys, set.enums.nodup_keys, fun a ha b hb heq => ?_⟩
  rw [NameMap.mem_keys_iff] at ha hb
  exact hset.disjoint ha (heq ▸ hb)

end DefinitionSet

namespace Layout

variable {layout : Layout} {set : DefinitionSet} {tree : FileTree}

namespace Arranged

theorem mem_symbols_iff (h : layout.Arranged set tree) {name : String} :
    name ∈ tree.symbols ↔ ∃ d ∈ set.declarations, d.name = name := by
  rw [h.symbols, mem_ofList_symbols]

theorem exists_of_get?_symbols (h : layout.Arranged set tree) {name path : String}
    (hget : tree.symbols.get? name = some path) :
    ∃ d ∈ set.declarations, d.name = name ∧ layout.pathFor d = path := by
  rw [h.symbols] at hget
  obtain ⟨d, hd, heq⟩ := List.mem_map.1 (NameMap.mem_of_get?_ofList hget)
  cases heq
  exact ⟨d, hd, rfl, rfl⟩

/-- Where names are distinct, each is held with the path of its declaration. -/
theorem get?_symbols (h : layout.Arranged set tree) (hset : set.Keyed) {d : Declaration}
    (hd : d ∈ set.declarations) : tree.symbols.get? d.name = some (layout.pathFor d) := by
  obtain ⟨path, hget⟩ := NameMap.mem_iff_get?.1 (h.mem_symbols_iff.2 ⟨d, hd, rfl⟩)
  obtain ⟨e, he, hname, rfl⟩ := h.exists_of_get?_symbols hget
  have hsame : e = d :=
    List.inj_on_of_nodup_map (DefinitionSet.nodup_names_declarations hset) he hd hname
  rw [hget, hsame]

/-- A file that shares with none has one declaration. -/
theorem exists_eq_singleton (h : layout.Arranged set tree)
    (hpaths : (set.declarations.map layout.pathFor).Nodup) {path : String} {file : OutputFile}
    (hget : tree.files.get? path = some file) (hrole : file.role = .declarations) :
    ∃ d, file.declarations = [d] := by
  have hholds := h.holds hget
  have hsome : set.declarations.filter (layout.pathFor · == path) ≠ [] := by
    intro hnone
    have hindex := OutputFile.isIndex_iff_role.1 (hholds.isIndex_iff.2 hnone)
    rw [hrole] at hindex
    cases hindex
  have hcount : (set.declarations.filter (layout.pathFor · == path)).length ≤ 1 := by
    rw [← List.countP_eq_length_filter]
    have hpath := List.nodup_iff_count_le_one.1 hpaths path
    rwa [List.count, List.countP_map] at hpath
  have hlength := List.length_pos_of_ne_nil hsome
  rw [hholds.declarations]
  exact List.length_eq_one_iff.1 (by omega)

end Arranged

/-- **Declarations of a tree.** The files of an assembled tree have the declarations of its set,
each as often as the set has it. Each is in the file at its path, which is no index, and in no
other; the names held are those of declarations, and where names are distinct each declaration is
there once and its name leads to its path. Indexes declare nothing, other files export what they
declare, and where declarations do not share files each of these has one. -/
theorem assemble_declarations (h : layout.assemble set = .ok tree) :
    (tree.files.values.flatMap (·.declarations)).Perm set.declarations ∧
    (∀ d ∈ set.declarations,
      (∃ file, tree.files.get? (layout.pathFor d) = some file ∧ file.path = layout.pathFor d ∧
        file.role = .declarations ∧ d ∈ file.declarations) ∧
      ∀ path file, tree.files.get? path = some file → d ∈ file.declarations →
        path = layout.pathFor d) ∧
    (∀ name, name ∈ tree.symbols ↔ ∃ d ∈ set.declarations, d.name = name) ∧
    (set.Keyed → (tree.files.values.flatMap (·.declarations)).Nodup ∧
      ∀ d ∈ set.declarations, tree.symbols.get? d.name = some (layout.pathFor d)) ∧
    ∀ path file, tree.files.get? path = some file →
      (file.role = .index → file.declarations = []) ∧
      (file.role = .declarations →
        (∀ name, name ∈ file.exportedNames ↔ ∃ d ∈ file.declarations, d.name = name) ∧
        (layout.groups = false → ∃ d, file.declarations = [d])) := by
  have harranged := arranged_assemble h
  have hperm := harranged.perm_declarations
  obtain ⟨placed, -, -, hplaced, -⟩ := assemble_eq_ok_iff.1 h
  refine ⟨hperm, fun d hd => ⟨?_, fun path file hget hmem => ?_⟩,
    fun name => harranged.mem_symbols_iff, fun hset => ⟨?_, fun d hd => ?_⟩,
    fun path file hget => ⟨fun hrole => ?_, fun hrole => ⟨fun name => ?_, fun hgroups => ?_⟩⟩⟩
  · obtain ⟨file, hget, hmem⟩ := harranged.exists_file hd
    have hrole : file.isIndex = false := by
      refine Bool.eq_false_iff.2 fun hindex => ?_
      rw [(harranged.holds hget).declarations,
        (harranged.holds hget).isIndex_iff.1 hindex] at hmem
      cases hmem
    exact ⟨file, hget, harranged.keyed hget, OutputFile.isIndex_eq_false_iff_role.1 hrole, hmem⟩
  · exact ((harranged.mem_declarations_iff hget).1 hmem).2.symm
  · exact hperm.nodup_iff.2
      (List.Nodup.of_map _ (DefinitionSet.nodup_names_declarations hset))
  · exact harranged.get?_symbols hset hd
  · rw [(harranged.holds hget).declarations]
    exact (harranged.holds hget).isIndex_iff.1 (OutputFile.isIndex_iff_role.2 hrole)
  · rw [(harranged.holds hget).exportedNames (OutputFile.isIndex_eq_false_iff_role.2 hrole),
      NameSet.mem_ofList, List.mem_map, (harranged.holds hget).declarations]
  · exact harranged.exists_eq_singleton (nodup_paths_of_place hgroups hplaced) hget hrole

/-- A user and a post that refer to each other, and the role that users have. -/
def userAndPost : DefinitionSet where
  types := .ofList
    [("Post", Samples.model "Post" [Samples.field "author" (.definition "User")]),
      ("User", Samples.model "User" [Samples.field "role" (.enumeration "Role"),
        Samples.many (Samples.field "posts" (.definition "Post"))])]
  enums := .ofList [("Role", ⟨"Role", ["USER", "ADMIN"]⟩)]

theorem valid_userAndPost : userAndPost.Valid :=
  DefinitionSet.validate_eq_ok_iff.1 (by decide +kernel)

/-- A file for each declaration, in a directory for each entity, and one index for all files. -/
def byEntity : Layout where
  pattern := ⟨[.token .model, .literal "/", .token .name, .literal ".ts"]⟩
  reExport := .single
  emitSingle := false
  sharedDirectory := "shared"
  indexFile := "index.ts"

theorem keys_userAndPost : (byEntity.assemble userAndPost).map (·.files.keys) =
    .ok ["index.ts", "post/post.ts", "shared/role.ts", "user/user.ts"] := by
  rw [assemble_eq_of_valid valid_userAndPost fun hsingle => absurd hsingle Bool.false_ne_true]
  decide +kernel

theorem assemble_declarations_userAndPost : ∃ tree, byEntity.assemble userAndPost = .ok tree ∧
    tree.files.keys = ["index.ts", "post/post.ts", "shared/role.ts", "user/user.ts"] ∧
    (tree.files.values.flatMap (·.declarations)).Nodup ∧
    tree.symbols.get? "Role" = some "shared/role.ts" ∧
    ∀ path file, tree.files.get? path = some file → file.role = .declarations →
      ∃ d, file.declarations = [d] := by
  obtain ⟨tree, htree, hkeys⟩ := Fallible.map_eq_ok.1 keys_userAndPost
  obtain ⟨-, -, -, hnamed, hfiles⟩ := assemble_declarations htree
  obtain ⟨hnodup, hsymbols⟩ := hnamed valid_userAndPost.toKeyed
  have hrole : Declaration.enumeration ⟨"Role", ["USER", "ADMIN"]⟩ ∈ userAndPost.declarations := by
    decide
  exact ⟨tree, htree, hkeys, hnodup, hsymbols _ hrole, fun path file hget hrole =>
    ((hfiles path file hget).2 hrole).2 (by decide)⟩

end Layout

end SchemaLayout
