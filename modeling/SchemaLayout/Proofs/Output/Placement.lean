import SchemaLayout.Output.Assembly
import SchemaLayout.Proofs.Names.Fallible
import SchemaLayout.Proofs.Names.Lookup

/-!
# Placed declarations

Placing goes through the declarations in order. `Placed` says what the tree is after some of them:
a file for each path that one of them has, which holds those that have it, in order (`fileOf`), and
the path of each by its name. `Placed.step` adds one declaration; `placed_place` is what a whole set
gives.
-/
namespace SchemaLayout.Layout

variable {layout : Layout} {tree next : FileTree} {set : DefinitionSet}

/-- The file that some declarations have at a path. -/
def fileOf (layout : Layout) (declarations : List Declaration) (path : String) : OutputFile :=
  let own := declarations.filter (layout.pathFor · == path)
  { OutputFile.empty path .declarations with
    exportedNames := .ofList (own.map (·.name))
    declarations := own }

theorem fileOf_of_forall_ne {declarations : List Declaration} {path : String}
    (h : ∀ d ∈ declarations, layout.pathFor d ≠ path) :
    fileOf layout declarations path = .empty path .declarations := by
  have hown : declarations.filter (layout.pathFor · == path) = [] := by
    simpa [List.filter_eq_nil_iff] using h
  unfold fileOf
  rw [hown]
  rfl

/-- One more declaration goes to the end of its file and leaves the others alone. -/
theorem fileOf_concat (declarations : List Declaration) (declaration : Declaration)
    (path : String) : fileOf layout (declarations ++ [declaration]) path =
      if layout.pathFor declaration = path then
        (fileOf layout declarations path).declare declaration
      else fileOf layout declarations path := by
  unfold fileOf
  rw [List.filter_append]
  split
  · rename_i hpath
    simp only [List.filter_singleton, hpath, beq_self_eq_true, OutputFile.declare,
      NameSet.ofList, List.map_append, List.foldl_append]
    rfl
  · rename_i hpath
    simp [hpath]

/-! ## One declaration after the other -/

/-- The tree after some declarations were placed. -/
structure Placed (layout : Layout) (done : List Declaration) (tree : FileTree) : Prop where
  files : ∀ {path file}, tree.files.get? path = some file ↔
    (∃ d ∈ done, layout.pathFor d = path) ∧ file = fileOf layout done path
  symbols : tree.symbols = .ofList (done.map fun d => (d.name, layout.pathFor d))
  rootIndex? : tree.rootIndex? = none

theorem placed_empty : Placed layout [] .empty where
  files := by simp [FileTree.empty]
  symbols := rfl
  rootIndex? := rfl

/-- Where a declaration goes there is the file of those placed before, or nothing yet. -/
theorem Placed.getD_eq {done : List Declaration} (h : Placed layout done tree) (path : String) :
    (tree.files.get? path).getD (.empty path .declarations) = fileOf layout done path := by
  cases hget : tree.files.get? path with
  | some file => exact (h.files.1 hget).2
  | none =>
    refine (fileOf_of_forall_ne fun d hd hpath => ?_).symm
    rw [h.files.2 ⟨⟨d, hd, hpath⟩, rfl⟩] at hget
    cases hget

theorem placeDeclaration_eq_ok {declaration : Declaration}
    (h : layout.placeDeclaration tree declaration = .ok next) :
    let path := layout.pathFor declaration
    next = { tree with
      files := tree.files.insert path
        (((tree.files.get? path).getD (.empty path .declarations)).declare declaration)
      symbols := tree.symbols.insert declaration.name path } := by
  unfold placeDeclaration at h
  simp only at h
  split at h
  · cases h
  · cases h
    rfl

theorem Placed.step {done : List Declaration} {declaration : Declaration}
    (h : Placed layout done tree) (hnext : layout.placeDeclaration tree declaration = .ok next) :
    Placed layout (done ++ [declaration]) next := by
  have heq := placeDeclaration_eq_ok hnext
  simp only [h.getD_eq] at heq
  subst heq
  refine ⟨fun {path file} => ?_, ?_, h.rootIndex?⟩
  · rw [NameMap.get?_insert, fileOf_concat]
    by_cases hpath : path = layout.pathFor declaration
    · subst hpath
      rw [if_pos rfl, if_pos rfl, Option.some.injEq]
      exact ⟨fun hfile => ⟨⟨declaration, by simp, rfl⟩, hfile.symm⟩, fun hfile => hfile.2.symm⟩
    · rw [if_neg hpath, if_neg (Ne.symm hpath), h.files]
      simp [Ne.symm hpath]
  · show tree.symbols.insert declaration.name (layout.pathFor declaration) = _
    rw [h.symbols, NameMap.ofList, NameMap.ofList, List.map_append, List.foldl_append]
    rfl

theorem Placed.run {done rest : List Declaration} {result : FileTree}
    (h : Placed layout done tree)
    (hresult : rest.foldlM layout.placeDeclaration tree = .ok result) :
    Placed layout (done ++ rest) result :=
  Fallible.foldlM_keeps_done (P := Placed layout) (fun _ hplaced hnext => hplaced.step hnext) [] rfl
    h hresult

theorem placed_place (h : layout.place set = .ok tree) : Placed layout set.declarations tree :=
  placed_empty.run h

/-- Where declarations do not share files, one more is placed under a path of its own. -/
theorem Placed.not_mem_of_not_groups {done : List Declaration} {declaration : Declaration}
    (hgroups : layout.groups = false) (h : Placed layout done tree)
    (hnext : layout.placeDeclaration tree declaration = .ok next) :
    layout.pathFor declaration ∉ done.map layout.pathFor := by
  unfold placeDeclaration at hnext
  simp only [h.getD_eq, hgroups] at hnext
  split at hnext
  · cases hnext
  · rename_i hfree
    intro hmem
    obtain ⟨d, hd, hpath⟩ := List.mem_map.1 hmem
    have hown : d ∈ (fileOf layout done (layout.pathFor declaration)).declarations :=
      List.mem_filter.2 ⟨hd, beq_iff_eq.2 hpath⟩
    cases hfirst : (fileOf layout done (layout.pathFor declaration)).declarations.head? with
    | none =>
      rw [List.head?_eq_none_iff.1 hfirst] at hown
      cases hown
    | some first =>
      rw [hfirst] at hfree
      cases hfree

theorem Placed.run_nodup {done rest : List Declaration} {result : FileTree}
    (hgroups : layout.groups = false) (h : Placed layout done tree)
    (hdone : (done.map layout.pathFor).Nodup)
    (hresult : rest.foldlM layout.placeDeclaration tree = .ok result) :
    ((done ++ rest).map layout.pathFor).Nodup := by
  have hstep : ∀ {done declaration before next},
      Placed layout done before ∧ (done.map layout.pathFor).Nodup →
      layout.placeDeclaration before declaration = .ok next →
      Placed layout (done ++ [declaration]) next ∧
        ((done ++ [declaration]).map layout.pathFor).Nodup := by
    intro done declaration before next hbefore hnext
    refine ⟨hbefore.1.step hnext, ?_⟩
    rw [List.map_append, List.map_singleton, ← List.concat_eq_append, List.nodup_concat]
    exact ⟨hbefore.1.not_mem_of_not_groups hgroups hnext, hbefore.2⟩
  exact (Fallible.foldlM_keeps_done
    (P := fun done reached => Placed layout done reached ∧ (done.map layout.pathFor).Nodup)
    (fun _ => hstep) [] rfl ⟨h, hdone⟩ hresult).2

/-- Where declarations do not share files, those of a set that is placed have different paths. -/
theorem nodup_paths_of_place (hgroups : layout.groups = false) (h : layout.place set = .ok tree) :
    (set.declarations.map layout.pathFor).Nodup := by
  have hrun : (([] ++ set.declarations).map layout.pathFor).Nodup :=
    placed_empty.run_nodup hgroups List.nodup_nil h
  rwa [List.nil_append] at hrun

/-- A declaration is placed where declarations share files, or under a path of its own. -/
theorem Placed.exists_next {done : List Declaration} {declaration : Declaration}
    (h : Placed layout done tree)
    (hpath : layout.groups = false → layout.pathFor declaration ∉ done.map layout.pathFor) :
    ∃ next, layout.placeDeclaration tree declaration = .ok next := by
  unfold placeDeclaration
  simp only [h.getD_eq]
  split
  · rename_i first hfirst
    obtain ⟨hhead, hgroups⟩ := Option.filter_eq_some_iff.1 hfirst
    obtain ⟨hdone, hsame⟩ := List.mem_filter.1 (List.mem_of_head? hhead)
    have htaken : layout.pathFor declaration ∈ done.map layout.pathFor :=
      List.mem_map.2 ⟨first, hdone, beq_iff_eq.1 hsame⟩
    exact absurd htaken (hpath (by simpa using hgroups))
  · exact ⟨_, rfl⟩

theorem Placed.exists_run {done rest : List Declaration} (h : Placed layout done tree)
    (hpaths : layout.groups = false → ((done ++ rest).map layout.pathFor).Nodup) :
    ∃ result, rest.foldlM layout.placeDeclaration tree = .ok result := by
  induction rest generalizing done tree with
  | nil => exact ⟨tree, rfl⟩
  | cons declaration rest ih =>
    have hnew : layout.groups = false → layout.pathFor declaration ∉ done.map layout.pathFor := by
      intro hgroups hmem
      have hnodup := hpaths hgroups
      rw [List.map_append, List.map_cons, List.nodup_middle, List.nodup_cons] at hnodup
      exact hnodup.1 (List.mem_append_left _ hmem)
    obtain ⟨next, hnext⟩ := h.exists_next hnew
    obtain ⟨result, hresult⟩ := ih (h.step hnext) (by rwa [List.append_assoc])
    exact ⟨result, Fallible.foldlM_cons_eq_ok.2 ⟨next, hnext, hresult⟩⟩

/-- A set is placed unless two of its declarations have one path and do not share files. -/
theorem exists_place_iff : (∃ tree, layout.place set = .ok tree) ↔
    (layout.groups = false → (set.declarations.map layout.pathFor).Nodup) :=
  ⟨fun ⟨_, h⟩ hgroups => nodup_paths_of_place hgroups h, fun h => placed_empty.exists_run h⟩

/-- Declarations that are not placed have one path. -/
theorem place_eq_error {cause : OutputError} (h : layout.place set = .error cause) :
    ∃ path first second, cause = .pathCollision path first second := by
  refine Fallible.foldlM_fails (Q := fun cause => ∃ path first second,
    cause = .pathCollision path first second) (fun {tree declaration cause} hstep => ?_) h
  unfold placeDeclaration at hstep
  simp only at hstep
  split at hstep
  · cases hstep
    exact ⟨_, _, _, rfl⟩
  · cases hstep

/-! ## What the tree of a set holds -/

theorem mem_ofList_symbols {declarations : List Declaration} {name : String} :
    name ∈ NameMap.ofList (declarations.map fun d => (d.name, layout.pathFor d)) ↔
      ∃ d ∈ declarations, d.name = name := by
  rw [NameMap.mem_ofList, List.map_map, List.mem_map]
  rfl

namespace Placed

variable {done : List Declaration} (h : Placed layout done tree)
include h

theorem mem_files_iff {path : String} :
    path ∈ tree.files ↔ ∃ d ∈ done, layout.pathFor d = path := by
  rw [NameMap.mem_iff_get?]
  simp only [h.files, exists_and_left, exists_eq, and_true]

theorem path_eq {path : String} {file : OutputFile} (hget : tree.files.get? path = some file) :
    file.path = path := by
  rw [(h.files.1 hget).2]
  rfl

theorem isIndex_eq_false {path : String} {file : OutputFile}
    (hget : tree.files.get? path = some file) : file.isIndex = false := by
  rw [(h.files.1 hget).2]
  rfl

theorem mem_of_mem_declarations {path : String} {file : OutputFile} {d : Declaration}
    (hget : tree.files.get? path = some file) (hd : d ∈ file.declarations) : d ∈ done := by
  rw [(h.files.1 hget).2] at hd
  exact List.mem_of_mem_filter hd

theorem mem_symbols_iff {name : String} : name ∈ tree.symbols ↔ ∃ d ∈ done, d.name = name := by
  rw [h.symbols, mem_ofList_symbols]

end Placed

end SchemaLayout.Layout
