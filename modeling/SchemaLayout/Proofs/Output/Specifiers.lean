import SchemaLayout.Proofs.Output.PlainPaths
import SchemaLayout.Proofs.Output.Resolution

/-!
# Specifiers

A specifier is read segment by segment from the directory of the file that it is in
(`Path.resolve?`). Between plain paths it goes up to where the directories of the two files part and
down from there, so it leads to its target without the extension (`Path.resolve?_specifier`). All
paths of a tree end in one extension (`extension_suffix_of_mem_files`), so what is left of a path
without it tells targets apart.

* `assemble_specifiers`: which specifiers a file has and where they lead.
-/
namespace SchemaLayout

namespace Path

/-! ## Common beginnings -/

section CommonLength

variable {α : Type} [DecidableEq α]

theorem commonLength_le (as bs : List α) :
    commonLength as bs ≤ as.length ∧ commonLength as bs ≤ bs.length := by
  fun_induction commonLength as bs with
  | case1 a as bs ih => simpa using ih
  | case2 a as b bs hne => simp
  | case3 as bs hshort => simp

theorem take_commonLength (as bs : List α) :
    as.take (commonLength as bs) = bs.take (commonLength as bs) := by
  fun_induction commonLength as bs with
  | case1 a as bs ih => rw [List.take_succ_cons, List.take_succ_cons, ih]
  | case2 a as b bs hne => rw [List.take_zero, List.take_zero]
  | case3 as bs hshort => rw [List.take_zero, List.take_zero]

end CommonLength

/-! ## Following specifiers -/

/-- Where some segments lead from a directory: `..` to the directory that it is in, which the root
does not have, `.` to itself, and any other to what it names in it. -/
def follow? (directory : List String) : List String → Option (List String)
  | [] => some directory
  | part :: rest =>
    if part = ".." then if directory = [] then none else follow? directory.dropLast rest
    else if part = "." then follow? directory rest
    else follow? (directory ++ [part]) rest

/-- The path that a specifier in the file at `source` leads to. -/
def resolve? (source specifier : String) : Option String :=
  (follow? (directorySegments (parent source)) (segments specifier)).map ofSegments

theorem follow?_up {directory : List String} (rest : List String) {ups : Nat}
    (h : ups ≤ directory.length) :
    follow? directory (List.replicate ups ".." ++ rest) =
      follow? (directory.take (directory.length - ups)) rest := by
  induction ups generalizing directory with
  | zero => simp
  | succ ups ih =>
    have hne : directory ≠ [] := List.length_pos_iff.1 (by omega)
    have hlength : directory.dropLast.length = directory.length - 1 := List.length_dropLast
    have hle : ups ≤ directory.dropLast.length := by omega
    rw [List.replicate_succ, List.cons_append, follow?, if_pos rfl, if_neg hne, ih hle,
      hlength, List.dropLast_eq_take, List.take_take]
    congr 2
    omega

theorem follow?_down {directory parts : List String}
    (h : ∀ part ∈ parts, Pattern.isBadPart part = false) :
    follow? directory parts = some (directory ++ parts) := by
  induction parts generalizing directory with
  | nil => rw [follow?, List.append_nil]
  | cons part parts ih =>
    obtain ⟨hpart, hparts⟩ := List.forall_mem_cons.1 h
    simp only [Pattern.isBadPart, Bool.or_eq_false_iff, beq_eq_false_iff_ne] at hpart
    rw [follow?, if_neg hpart.2, if_neg hpart.1.2, ih hparts, List.append_assoc,
      List.singleton_append]

theorem join_ups_succ (ups : Nat) (rest : String) :
    String.join (List.replicate (ups + 1) "../") ++ rest =
      "../" ++ (String.join (List.replicate ups "../") ++ rest) := by
  refine String.toList_inj.1 ?_
  simp [String.toList_append, String.toList_join, List.replicate_succ]

theorem segments_up (ups : Nat) (rest : String) :
    segments (String.join (List.replicate ups "../") ++ rest) =
      List.replicate ups ".." ++ segments rest := by
  induction ups with
  | zero => simp [String.join]
  | succ ups ih =>
    rw [join_ups_succ]
    refine (segments_append ".." _).trans ?_
    rw [ih]
    rfl

theorem exists_specifier_eq (extension source target : String) :
    ∃ rest, specifier extension source target = "./" ++ rest ∨
      specifier extension source target = "../" ++ rest := by
  unfold specifier
  simp only
  split
  · exact ⟨_, Or.inl rfl⟩
  · rename_i hups
    obtain ⟨ups, hsucc⟩ := Nat.exists_eq_succ_of_ne_zero hups
    rw [hsucc, join_ups_succ]
    exact ⟨_, Or.inr rfl⟩

theorem follow?_specifier {directory parts : List String} {ups : Nat}
    (hups : ups ≤ directory.length) (hne : parts ≠ [])
    (hparts : ∀ part ∈ parts, '/' ∉ part.toList ∧ Pattern.isBadPart part = false) :
    follow? directory (segments ((if ups = 0 then "./" else String.join (List.replicate ups "../"))
      ++ ofSegments parts)) = some (directory.take (directory.length - ups) ++ parts) := by
  have hrest : segments (ofSegments parts) = parts :=
    segments_ofSegments hne fun part hpart => (hparts part hpart).1
  have hdown := fun part hpart => (hparts part hpart).2
  split
  · rename_i hzero
    have hwritten : segments ("./" ++ ofSegments parts) = "." :: parts := by
      have happend := segments_append "." (ofSegments parts)
      rwa [hrest] at happend
    rw [hwritten, follow?, if_neg (by decide), if_pos rfl, follow?_down hdown, hzero, Nat.sub_zero,
      List.take_length]
  · rw [segments_up, hrest, follow?_up parts hups, follow?_down hdown]

/-- Between plain paths, a specifier leads to its target without the extension. -/
theorem resolve?_specifier {extension source target : String} (hsource : IsPlain source)
    (htarget : IsPlain (withoutExtension target extension)) :
    resolve? source (specifier extension source target) =
      some (withoutExtension target extension) := by
  have horigin := hsource.directorySegments_parent
  unfold resolve? specifier
  simp only
  generalize directorySegments (parent source) = origin at horigin ⊢
  generalize hgoal : segments (withoutExtension target extension) = goal
  have hlast : goal ≠ [] := hgoal ▸ segments_ne_nil _
  have hpositive := List.length_pos_iff.2 hlast
  have hlength : goal.dropLast.length = goal.length - 1 := List.length_dropLast
  obtain ⟨hleft, hright⟩ := commonLength_le origin goal.dropLast
  have htake := take_commonLength origin goal.dropLast
  generalize commonLength origin goal.dropLast = common at *
  -- the name of the target is never common, so there is something left to go down to
  have hrest : goal.drop common ≠ [] := by
    rw [Ne, List.drop_eq_nil_iff]
    omega
  have hkept : origin.length - (origin.length - common) = common := by omega
  have hmiddle : goal.dropLast.take common = goal.take common := by
    rw [List.dropLast_eq_take, List.take_take, Nat.min_eq_left (by omega)]
  rw [follow?_specifier (Nat.sub_le ..) hrest, hkept, htake, hmiddle, List.take_append_drop,
    Option.map_some, ← hgoal, ofSegments_segments]
  intro part hpart
  have hmem : part ∈ segments (withoutExtension target extension) :=
    hgoal ▸ List.mem_of_mem_drop hpart
  exact ⟨not_mem_of_mem_segments hmem, htarget part hmem⟩

/-! ## Extensions -/

theorem withoutExtension_append {path extension : String}
    (h : extension.toList <:+ path.toList) :
    withoutExtension path extension ++ extension = path := by
  obtain ⟨stem, hstem⟩ := h
  have hdrop : Text.dropSuffix? path.toList extension.toList = some stem := by
    simp [Text.dropSuffix?, ← hstem]
  unfold withoutExtension
  rw [hdrop]
  refine String.toList_inj.1 ?_
  rw [String.toList_append, String.toList_ofList, hstem]

end Path

/-! ## The specifiers of a tree -/

theorem OutputFile.mem_targets_iff {file : OutputFile} {target : String} :
    target ∈ file.targets ↔ target ∈ file.imports ∨ target ∈ file.reExports := by
  rw [targets, NameSet.mem_ofList, List.mem_append, NameMap.mem_keys_iff, NameMap.mem_keys_iff]

namespace Layout

open SchemaLayout.Path (IsPlain)

variable {config : Config} {layout : Layout} {set : DefinitionSet} {tree : FileTree}

theorem extension_suffix_indexFile (hlayout : ofConfig config = .ok layout) :
    layout.pattern.extension.toList <:+ layout.indexFile.toList := by
  obtain ⟨pattern, -, rfl⟩ := ofConfig_eq_ok hlayout
  show pattern.extension.toList <:+ pattern.indexFile.toList
  rw [Pattern.toList_indexFile]
  exact List.suffix_append _ _

/-- All paths of a tree end in the extension of the pattern. -/
theorem extension_suffix_of_mem_files (hlayout : ofConfig config = .ok layout)
    (htree : layout.assemble set = .ok tree) {path : String} (h : path ∈ tree.files) :
    layout.pattern.extension.toList <:+ path.toList := by
  have hindex := extension_suffix_indexFile hlayout
  obtain ⟨file, hget⟩ := NameMap.mem_iff_get?.1 h
  rcases (isFile_assemble htree).2 hget with ⟨-, d, -, rfl⟩ | ⟨-, -, directory, rfl, -⟩
  · unfold pathFor
    split
    · exact hindex
    · exact Pattern.extension_suffix_render ..
  · exact hindex.trans (Path.suffix_join ..)

theorem mem_files_of_mem_reExports (htree : layout.assemble set = .ok tree) {path target : String}
    {file : OutputFile} (hget : tree.files.get? path = some file) (h : target ∈ file.reExports) :
    target ∈ tree.files := by
  cases hrole : file.isIndex with
  | false =>
    rw [((arranged_assemble htree).holds hget).reExports hrole] at h
    exact absurd h (NameMap.not_mem_empty target)
  | true =>
    obtain ⟨placed, resolved, indexed, hplaced, -, hresolved, hindexed, -, hfault, rfl⟩ :=
      assemble_eq_ok_iff.1 htree
    obtain ⟨-, rfl⟩ := FileTree.resolveImports_eq_ok_iff.1 hresolved
    have hkeyed : FileTree.Keyed indexed.files :=
      ((arranged_withImports hplaced).addIndexes hindexed).keyed
    have hlinked := (FileTree.fault?_eq_none_iff hkeyed).1 hfault
    obtain ⟨old, hold, rfl⟩ := FileTree.get?_fillSpecifiers.1 hget
    have hedge := (FileTree.reExports_iff hkeyed).2 ⟨old, hold, hrole, h⟩
    obtain ⟨other, hother⟩ := NameMap.mem_iff_get?.1 (hlinked.present hedge)
    exact NameMap.mem_of_get? (FileTree.get?_fillSpecifiers.2 ⟨other, hother, rfl⟩)

/-- What a file of a tree imports or re-exports is in the tree. -/
theorem mem_files_of_mem_targets (htree : layout.assemble set = .ok tree) {path target : String}
    {file : OutputFile} (hget : tree.files.get? path = some file) (h : target ∈ file.targets) :
    target ∈ tree.files := by
  rcases OutputFile.mem_targets_iff.1 h with himport | hreExport
  · obtain ⟨names, hnames⟩ := NameMap.mem_iff_get?.1 himport
    obtain ⟨other, hother, -⟩ :=
      ((arranged_assemble htree).importsExactly hget).declared target names hnames
    exact NameMap.mem_of_get? hother
  · exact mem_files_of_mem_reExports htree hget hreExport

theorem specifiers_eq (htree : layout.assemble set = .ok tree) {path : String} {file : OutputFile}
    (hget : tree.files.get? path = some file) : file.specifiers =
      file.targets.mapValues fun target _ =>
        Path.specifier layout.pattern.extension path target := by
  have hpath := (arranged_assemble htree).keyed hget
  obtain ⟨-, -, indexed, -, -, -, -, -, -, rfl⟩ := assemble_eq_ok_iff.1 htree
  obtain ⟨old, -, rfl⟩ := FileTree.get?_fillSpecifiers.1 hget
  rw [← hpath]
  rfl

/-- **Specifiers of a tree.** Each file of a tree has specifiers for the paths that it imports or
re-exports from, and no others. Where all paths are plain, with the extension of the pattern and
without it, every specifier starts with a step, leads from the directory of its file to its target
without the extension, and belongs to one target only. -/
theorem assemble_specifiers (hlayout : ofConfig config = .ok layout)
    (htree : layout.assemble set = .ok tree) :
    (∀ path file, tree.files.get? path = some file → ∀ target,
      target ∈ file.specifiers ↔ target ∈ file.imports ∨ target ∈ file.reExports) ∧
    ((∀ path ∈ tree.files,
        IsPlain path ∧ IsPlain (Path.withoutExtension path layout.pattern.extension)) →
      ∀ path file, tree.files.get? path = some file →
        (∀ target specifier, file.specifiers.get? target = some specifier →
          (∃ rest, specifier = "./" ++ rest ∨ specifier = "../" ++ rest) ∧
          Path.resolve? path specifier =
            some (Path.withoutExtension target layout.pattern.extension)) ∧
        ∀ target other specifier, file.specifiers.get? target = some specifier →
          file.specifiers.get? other = some specifier → target = other) := by
  refine ⟨fun path file hget target => ?_, fun hplain path file hget => ?_⟩
  · rw [specifiers_eq htree hget, ← OutputFile.mem_targets_iff, NameMap.mem_iff_get?,
      NameMap.mem_iff_get?, NameMap.get?_mapValues]
    simp
  have hspecifier : ∀ {target specifier}, file.specifiers.get? target = some specifier →
      target ∈ tree.files ∧
        specifier = Path.specifier layout.pattern.extension path target := by
    intro target specifier hsome
    rw [specifiers_eq htree hget, NameMap.get?_mapValues, Option.map_eq_some_iff] at hsome
    obtain ⟨_, htarget, rfl⟩ := hsome
    exact ⟨mem_files_of_mem_targets htree hget (NameMap.mem_of_get? htarget), rfl⟩
  have hleads : ∀ {target specifier}, file.specifiers.get? target = some specifier →
      Path.resolve? path specifier =
        some (Path.withoutExtension target layout.pattern.extension) := by
    intro target specifier hsome
    obtain ⟨htarget, rfl⟩ := hspecifier hsome
    exact Path.resolve?_specifier (hplain path (NameMap.mem_of_get? hget)).1
      (hplain target htarget).2
  refine ⟨fun target specifier hsome => ⟨?_, hleads hsome⟩,
    fun target other specifier hsome hsame => ?_⟩
  · rw [(hspecifier hsome).2]
    exact Path.exists_specifier_eq ..
  · have hstem := Option.some.inj ((hleads hsome).symm.trans (hleads hsame))
    have htarget := extension_suffix_of_mem_files hlayout htree (hspecifier hsome).1
    have hother := extension_suffix_of_mem_files hlayout htree (hspecifier hsame).1
    rw [← Path.withoutExtension_append htarget, hstem, Path.withoutExtension_append hother]

def byEntityConfig : Config :=
  { Config.default with
    pattern := byEntity.pattern.text
    reExport := .single
    sharedDirectory := "shared" }

/-- Users name posts from their own directory, and no other file in the same way. -/
theorem assemble_specifiers_userAndPost : ofConfig byEntityConfig = .ok byEntity ∧
    ∃ tree user, byEntity.assemble userAndPost = .ok tree ∧
      tree.files.get? "user/user.ts" = some user ∧
      ("post/post.ts" ∈ user.imports ∨ "post/post.ts" ∈ user.reExports) ∧
      user.specifiers.get? "post/post.ts" = some "../post/post" ∧
      Path.resolve? "user/user.ts" "../post/post" = some "post/post" ∧
      ∀ target, user.specifiers.get? target = some "../post/post" → target = "post/post.ts" := by
  have hlayout : ofConfig byEntityConfig = .ok byEntity := by decide +kernel
  have hwritten : (byEntity.assemble userAndPost).map (fun tree =>
      (tree.files.get? "user/user.ts").map (·.specifiers.get? "post/post.ts")) =
        .ok (some (some "../post/post")) := by
    rw [assemble_eq_of_valid valid_userAndPost fun hsingle => absurd hsingle Bool.false_ne_true]
    decide +kernel
  obtain ⟨tree, htree, huser⟩ := Fallible.map_eq_ok.1 hwritten
  obtain ⟨user, hget, hspecifier⟩ := Option.map_eq_some_iff.1 huser
  have hkeys : tree.files.keys =
      ["index.ts", "post/post.ts", "shared/role.ts", "user/user.ts"] := by
    have hpaths := keys_userAndPost
    rw [htree] at hpaths
    exact Except.ok.inj hpaths
  obtain ⟨htargets, hplain⟩ := assemble_specifiers hlayout htree
  have hall : ∀ path ∈ tree.files.keys,
      IsPlain path ∧ IsPlain (Path.withoutExtension path byEntity.pattern.extension) := by
    rw [hkeys]
    decide
  obtain ⟨hleads, hdistinct⟩ :=
    hplain (fun path hpath => hall path (NameMap.mem_keys_iff.2 hpath)) _ _ hget
  have htarget := (htargets _ _ hget _).1 (NameMap.mem_of_get? hspecifier)
  exact ⟨hlayout, tree, user, htree, hget, htarget, hspecifier, (hleads _ _ hspecifier).2,
    fun target hsame => hdistinct _ _ _ hsame hspecifier⟩

end Layout

end SchemaLayout
