import Mathlib
import SchemaLayout.Proofs.Output.Cycles
import SchemaLayout.Proofs.Output.Verification

/-!
# What verification answers

Verification looks for faults in a fixed order: re-exports of files that are not there, all of them,
in the order of paths (`pairwise_reExports`); then an index that comes back to itself; then a root
that is not there, or the first file with declarations that the root does not lead to
(`unreachable?_eq_some`). `Verdict` has one case for each answer, with all that has to hold for it.

**Result.** `verify_verdict`: the answer is that of its case.
-/
namespace SchemaLayout.FileTree

open Relation

variable {tree : FileTree}

/-- An index at `a` re-exports from `b`, which is not in the tree. -/
def Missing (tree : FileTree) (a b : String) : Prop := tree.ReExports a b ∧ b ∉ tree.files

/-- The file there declares something, and the root does not lead to it. -/
def Unreached (tree : FileTree) (root path : String) : Prop :=
  (∃ file, tree.files.get? path = some file ∧ file.isIndex = false) ∧
    ¬ReflTransGen tree.ReExports root path

/-- What verification is to answer. -/
inductive Verdict (tree : FileTree) : Except OutputError Unit → Prop where
  /-- Files that are re-exported are not there. There is one finding for each index and each such
  file that it re-exports. -/
  | missing {pairs : List (String × String)} (nonempty : pairs ≠ [])
      (exact : ∀ a b, (a, b) ∈ pairs ↔ tree.Missing a b)
      (ordered : pairs.Pairwise (Prod.Lex (· < ·) (· < ·))) :
      Verdict tree (.error (.findings
        (pairs.map fun pair => .missingTarget ⟨some pair.1, none, none⟩ pair.2)))
  /-- An index comes back to itself. Of the files that it leads to and that lead back to it, the
  first one is named. -/
  | cyclic {path : String} (present : ∀ a b, ¬tree.Missing a b)
      (cycle : TransGen tree.ReExports path path)
      (least : ∀ other, TransGen tree.ReExports path other → TransGen tree.ReExports other path →
        path ≤ other) :
      Verdict tree (.error (.indexCycle path))
  /-- The root is not there. -/
  | rootless {root : String} (present : ∀ a b, ¬tree.Missing a b)
      (acyclic : ∀ a, ¬TransGen tree.ReExports a a) (rooted : tree.rootIndex? = some root)
      (absent : root ∉ tree.files) :
      Verdict tree (.error (.unreachable "" root root))
  /-- The root does not lead to a file. The first such file is named, with the first name that it
  exports. -/
  | unreached {root path : String} {file : OutputFile} (present : ∀ a b, ¬tree.Missing a b)
      (acyclic : ∀ a, ¬TransGen tree.ReExports a a) (rooted : tree.rootIndex? = some root)
      (there : root ∈ tree.files) (held : tree.files.get? path = some file)
      (unreached : tree.Unreached root path)
      (first : ∀ other, tree.Unreached root other → path ≤ other) :
      Verdict tree (.error (.unreachable (file.exportedNames.first?.getD "") path root))
  /-- There is no fault. -/
  | accepted (present : ∀ a b, ¬tree.Missing a b) (acyclic : ∀ a, ¬TransGen tree.ReExports a a)
      (reached : ∀ root, tree.rootIndex? = some root →
        root ∈ tree.files ∧ ∀ path, ¬tree.Unreached root path) :
      Verdict tree (.ok ())

/-! ## Orders -/

section Keyed

variable (hkeyed : Keyed tree.files)
include hkeyed

/-- Files in the order of the map are in the order of their paths. -/
theorem pairwise_path_values : tree.files.values.Pairwise fun f g => f.path < g.path := by
  have hkeys := tree.files.pairwise_keys
  rwa [← NameMap.map_values_eq_keys (fun hget => hkeyed hget), List.pairwise_map] at hkeys

theorem pairwise_reExports : tree.reExports.Pairwise (Prod.Lex (· < ·) (· < ·)) := by
  unfold reExports
  rw [List.pairwise_flatMap]
  constructor
  · intro file _
    rw [List.pairwise_map]
    exact file.reExports.pairwise_keys.imp fun hlt => .right _ hlt
  · refine ((pairwise_path_values hkeyed).filter _).imp fun hlt p hp q hq => .left _ _ ?_
    obtain ⟨-, -, rfl⟩ := List.mem_map.1 hp
    obtain ⟨-, -, rfl⟩ := List.mem_map.1 hq
    exact hlt

/-! ## Faults -/

theorem missing_verdict (h : tree.missingTargets ≠ []) :
    tree.Verdict (.error (.findings tree.missingTargets)) := by
  refine .missing (fun hnil => h (by rw [missingTargets, hnil]; rfl)) (fun a b => ?_)
    ((pairwise_reExports hkeyed).filter _)
  rw [List.mem_filter, Bool.and_eq_true, Bool.not_eq_true']
  constructor
  · rintro ⟨hab, -, hb⟩
    exact ⟨hab, Bool.eq_false_iff.1 hb⟩
  · rintro ⟨hab, hb⟩
    exact ⟨hab, mem_files_of_reExports hkeyed hab, Bool.eq_false_iff.2 hb⟩

omit hkeyed in
theorem not_missing_iff :
    (∀ a b, ¬tree.Missing a b) ↔ ∀ a b, tree.ReExports a b → b ∈ tree.files := by
  simp only [Missing, not_and, not_not]

/-- The root that is not there, or the first file that it does not lead to, is the fault. -/
theorem unreachable?_eq_some (hpresent : ∀ a b, tree.ReExports a b → b ∈ tree.files)
    {root : String} {fault : OutputError} (h : tree.unreachable? root = some fault) :
    (root ∉ tree.files ∧ fault = .unreachable "" root root) ∨ (root ∈ tree.files ∧
      ∃ path file, tree.files.get? path = some file ∧ tree.Unreached root path ∧
        (∀ other, tree.Unreached root other → path ≤ other) ∧
          fault = .unreachable (file.exportedNames.first?.getD "") path root) := by
  unfold unreachable? at h
  split at h
  · rename_i hroot
    have hnode : root ∈ tree.reExportGraph.nodes := NameMap.mem_keys_iff.2 hroot
    have hreached : ∀ file : OutputFile,
        (!(tree.reExportGraph.reachable root).contains file.path) = true ↔
          ¬ReflTransGen tree.ReExports root file.path := by
      intro file
      rw [Bool.not_eq_true', ← Bool.not_eq_true, List.contains_iff_mem,
        Graph.mem_reachable_iff closed_reExportGraph hnode, edge_reExportGraph hkeyed hpresent]
    obtain ⟨file, hfound, rfl⟩ := Option.map_eq_some_iff.1 h
    obtain ⟨hvalue, hrole⟩ := List.mem_filter.1 (List.mem_of_find?_eq_some hfound)
    obtain ⟨path, hget⟩ := NameMap.mem_values_iff.1 hvalue
    obtain rfl : file.path = path := hkeyed hget
    obtain ⟨hnot, front, back, hsplit, hfront⟩ := List.find?_eq_some_iff_append.1 hfound
    refine Or.inr ⟨hroot, file.path, file, hget,
      ⟨⟨file, hget, by simpa using hrole⟩, (hreached file).1 hnot⟩, ?_, rfl⟩
    rintro other ⟨⟨found, hother, hdeclares⟩, hunreached⟩
    obtain rfl : found.path = other := hkeyed hother
    have hmem : found ∈ tree.declarationFiles :=
      List.mem_filter.2 ⟨NameMap.mem_values_iff.2 ⟨_, hother⟩, by rw [hdeclares]; rfl⟩
    have hsorted : tree.declarationFiles.Pairwise fun f g => f.path < g.path :=
      (pairwise_path_values hkeyed).filter _
    rw [hsplit, List.pairwise_append, List.pairwise_cons] at hsorted
    rw [hsplit, List.mem_append, List.mem_cons] at hmem
    rcases hmem with hin | rfl | hin
    · -- files in front of the first one found are reached
      have hleads := hfront found hin
      rw [(hreached found).2 hunreached] at hleads
      cases hleads
    · exact String.le_refl _
    · exact String.not_lt.1 (String.lt_asymm (hsorted.2.1.1 found hin))
  · rename_i hroot
    cases h
    exact Or.inl ⟨hroot, rfl⟩

theorem unreachable?_verdict (hpresent : ∀ a b, tree.ReExports a b → b ∈ tree.files)
    (hacyclic : ∀ a, ¬TransGen tree.ReExports a a) {root : String}
    (hroot : tree.rootIndex? = some root) {fault : OutputError}
    (h : tree.unreachable? root = some fault) : tree.Verdict (.error fault) := by
  have hmissing := not_missing_iff.2 hpresent
  rcases unreachable?_eq_some hkeyed hpresent h with
    ⟨habsent, rfl⟩ | ⟨hthere, path, file, hget, hunreached, hfirst, rfl⟩
  · exact .rootless hmissing hacyclic hroot habsent
  · exact .unreached hmissing hacyclic hroot hthere hget hunreached hfirst

theorem indexCycle_verdict (hpresent : ∀ a b, tree.ReExports a b → b ∈ tree.files)
    (hcyclic : tree.reExportGraph.isCyclic = true) :
    tree.Verdict (.error (.indexCycle (tree.reExportGraph.cycleName?.getD ""))) := by
  obtain ⟨name, hname, hcycle, hleast⟩ := Graph.exists_cycleName? closed_reExportGraph hcyclic
  rw [edge_reExportGraph hkeyed hpresent] at hcycle hleast
  rw [hname]
  exact .cyclic (not_missing_iff.2 hpresent) hcycle fun other hthere hback =>
    hleast other hthere.to_reflTransGen hback.to_reflTransGen

theorem fault_verdict {fault : OutputError} (h : tree.fault? = some fault) :
    tree.Verdict (.error fault) := by
  unfold fault? at h
  by_cases hmissing : tree.missingTargets = []
  · have hpresent := (missingTargets_eq_nil_iff hkeyed).1 hmissing
    rw [if_neg (not_not.2 hmissing)] at h
    by_cases hcyclic : tree.reExportGraph.isCyclic = true
    · rw [if_pos hcyclic] at h
      cases h
      exact indexCycle_verdict hkeyed hpresent hcyclic
    · rw [if_neg hcyclic] at h
      obtain ⟨root, hroot, hunreachable⟩ := Option.bind_eq_some_iff.1 h
      refine unreachable?_verdict hkeyed hpresent (fun a ha => hcyclic ?_) hroot hunreachable
      rw [Graph.isCyclic_iff closed_reExportGraph, edge_reExportGraph hkeyed hpresent]
      exact ⟨a, ha⟩
  · rw [if_pos hmissing] at h
    cases h
    exact missing_verdict hkeyed hmissing

omit hkeyed in
theorem Linked.verdict (h : tree.Linked) : tree.Verdict (.ok ()) := by
  refine .accepted (not_missing_iff.2 fun a b => h.present) (fun a => h.acyclic)
    fun root hroot => ⟨(h.reached hroot).1, ?_⟩
  rintro path ⟨⟨file, hget, hdeclares⟩, hunreached⟩
  exact hunreached ((h.reached hroot).2 hget hdeclares)

end Keyed

/-- **Verification.** For a tree whose files are held under their own paths, verification answers
with the first fault that there is: with all re-exports of an index whose target is not in the tree,
else with a path on a cycle of re-exports, else, where there is a root, with a root that is not in
the tree or with the first file with declarations that it does not lead to. It accepts the tree in
all other cases. -/
theorem verify_verdict (hkeyed : Keyed tree.files) :
    (∀ a b, tree.ReExports a b ↔ ∃ file, tree.files.get? a = some file ∧ file.isIndex = true ∧
      b ∈ file.reExports) ∧ tree.Verdict tree.verify := by
  refine ⟨fun a b => reExports_iff hkeyed, ?_⟩
  unfold verify
  cases hfault : tree.fault? with
  | some fault => exact fault_verdict hkeyed hfault
  | none => exact ((fault?_eq_none_iff hkeyed).1 hfault).verdict

/-- A root that leads to two indexes which re-export each other. -/
def mutualIndexes : FileTree where
  files := .ofList ([("a/index.ts", "b/index.ts"), ("b/index.ts", "a/index.ts"),
    ("index.ts", "b/index.ts")].map fun link =>
      (link.1, (OutputFile.empty link.1 .index).reExport link.2 ∅))
  symbols := ∅
  rootIndex? := some "index.ts"

theorem verify_verdict_mutualIndexes : Keyed mutualIndexes.files ∧
    mutualIndexes.verify = .error (.indexCycle "a/index.ts") ∧
    TransGen mutualIndexes.ReExports "a/index.ts" "a/index.ts" := by
  have hentries : ∀ entry ∈ mutualIndexes.files.entries, entry.2.path = entry.1 := by decide
  have hkeyed : Keyed mutualIndexes.files :=
    fun hget => hentries _ (NameMap.get?_eq_some_iff.1 hget)
  have hverify : mutualIndexes.verify = .error (.indexCycle "a/index.ts") := by cbv
  have hverdict := (verify_verdict hkeyed).2
  rw [hverify] at hverdict
  cases hverdict with
  | cyclic _ hcycle _ => exact ⟨hkeyed, hverify, hcycle⟩

end SchemaLayout.FileTree
