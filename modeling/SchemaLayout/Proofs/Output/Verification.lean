import SchemaLayout.Output.Verification
import SchemaLayout.Proofs.Names.Lookup
import SchemaLayout.Proofs.Output.Reachability

/-!
# What verification accepts

A tree whose files are held under their own paths is accepted exactly when its re-exports are as
they should be (`fault?_eq_none_iff`): every target is a file, no index comes back to itself, and
the root index, where there is one, leads to every file that declares something.
-/
namespace SchemaLayout.FileTree

open Relation

def Keyed (files : NameMap OutputFile) : Prop :=
  ∀ {path file}, files.get? path = some file → file.path = path

/-- An index at `a` re-exports from `b`. -/
def ReExports (tree : FileTree) (a b : String) : Prop := (a, b) ∈ tree.reExports

/-- Re-exports as they should be. -/
structure Linked (tree : FileTree) : Prop where
  present : ∀ {a b}, tree.ReExports a b → b ∈ tree.files
  acyclic : ∀ {a}, ¬TransGen tree.ReExports a a
  reached : ∀ {root}, tree.rootIndex? = some root → root ∈ tree.files ∧
    ∀ {path file}, tree.files.get? path = some file → file.isIndex = false →
      ReflTransGen tree.ReExports root path

variable {tree : FileTree} (hkeyed : Keyed tree.files)
include hkeyed

theorem reExports_iff {a b : String} : tree.ReExports a b ↔ ∃ file,
    tree.files.get? a = some file ∧ file.isIndex = true ∧ b ∈ file.reExports := by
  simp only [ReExports, reExports, indexFiles, List.mem_flatMap, List.mem_filter, List.mem_map,
    NameMap.mem_values_iff, NameMap.mem_keys_iff, Prod.mk.injEq]
  constructor
  · rintro ⟨file, ⟨⟨path, hget⟩, hindex⟩, _, htarget, rfl, rfl⟩
    rw [hkeyed hget]
    exact ⟨file, hget, hindex, htarget⟩
  · rintro ⟨file, hget, hindex, htarget⟩
    exact ⟨file, ⟨⟨a, hget⟩, hindex⟩, b, htarget, hkeyed hget, rfl⟩

theorem mem_files_of_reExports {a b : String} (h : tree.ReExports a b) : a ∈ tree.files := by
  obtain ⟨file, hget, -⟩ := (reExports_iff hkeyed).1 h
  exact NameMap.mem_of_get? hget

theorem missingTargets_eq_nil_iff :
    tree.missingTargets = [] ↔ ∀ a b, tree.ReExports a b → b ∈ tree.files := by
  unfold missingTargets
  rw [List.map_eq_nil_iff, List.filter_eq_nil_iff]
  constructor
  · intro h a b hab
    have hboth := h (a, b) hab
    rw [Bool.and_eq_true, Bool.not_eq_true', not_and, Bool.not_eq_false] at hboth
    exact hboth (mem_files_of_reExports hkeyed hab)
  · rintro h ⟨a, b⟩ hab hboth
    obtain ⟨-, hmissing⟩ := Bool.and_eq_true_iff.1 hboth
    have hpresent : tree.files.contains b = true := h a b hab
    rw [hpresent] at hmissing
    cases hmissing

omit hkeyed in
theorem closed_reExportGraph : tree.reExportGraph.Closed := by
  intro a b hab
  obtain ⟨-, hboth⟩ := List.mem_filter.1 hab
  obtain ⟨ha, hb⟩ := Bool.and_eq_true_iff.1 hboth
  exact ⟨NameMap.mem_keys_iff.2 ha, NameMap.mem_keys_iff.2 hb⟩

/-- Where no target is missing, the graph has an edge for every re-export. -/
theorem edge_reExportGraph (hpresent : ∀ a b, tree.ReExports a b → b ∈ tree.files) :
    tree.reExportGraph.Edge = tree.ReExports := by
  funext a b
  refine propext ⟨fun hab => (List.mem_filter.1 hab).1, fun hab => List.mem_filter.2 ⟨hab, ?_⟩⟩
  exact Bool.and_eq_true_iff.2 ⟨mem_files_of_reExports hkeyed hab, hpresent a b hab⟩

theorem unreachable?_eq_none_iff {root : String} : tree.unreachable? root = none ↔
    root ∈ tree.files ∧ ∀ {path file}, tree.files.get? path = some file → file.isIndex = false →
      ReflTransGen tree.reExportGraph.Edge root path := by
  unfold unreachable?
  split
  · rename_i hroot
    have hmem : root ∈ tree.reExportGraph.nodes := NameMap.mem_keys_iff.2 hroot
    rw [Option.map_eq_none_iff, List.find?_eq_none]
    simp only [declarationFiles, List.mem_filter, NameMap.mem_values_iff, Bool.not_eq_true',
      Bool.not_eq_false, List.contains_iff_mem, Graph.mem_reachable_iff closed_reExportGraph hmem]
    constructor
    · intro h
      refine ⟨hroot, fun hget hdeclares => ?_⟩
      have hpath := h _ ⟨⟨_, hget⟩, hdeclares⟩
      rwa [hkeyed hget] at hpath
    · rintro ⟨-, h⟩ file ⟨⟨path, hget⟩, hdeclares⟩
      rw [hkeyed hget]
      exact h hget hdeclares
  · rename_i hroot
    constructor
    · intro h; cases h
    · rintro ⟨h, -⟩; exact absurd h hroot

/-- The trees without a fault are those whose re-exports are as they should be. -/
theorem fault?_eq_none_iff : tree.fault? = none ↔ tree.Linked := by
  unfold fault?
  by_cases hmissing : tree.missingTargets = []
  · have hpresent := (missingTargets_eq_nil_iff hkeyed).1 hmissing
    have hedge := edge_reExportGraph hkeyed hpresent
    rw [if_neg (not_not.2 hmissing)]
    by_cases hcyclic : tree.reExportGraph.isCyclic = true
    · rw [if_pos hcyclic]
      obtain ⟨node, hnode⟩ := (Graph.isCyclic_iff closed_reExportGraph).1 hcyclic
      rw [hedge] at hnode
      constructor
      · intro h; cases h
      · intro h; exact absurd hnode h.acyclic
    · rw [if_neg hcyclic, Option.bind_eq_none_iff]
      simp only [unreachable?_eq_none_iff hkeyed, hedge]
      constructor
      · intro h
        refine ⟨hpresent _ _, fun hnode => hcyclic ?_, h _⟩
        exact (Graph.isCyclic_iff closed_reExportGraph).2 ⟨_, hedge ▸ hnode⟩
      · intro h root hroot
        exact h.reached hroot
  · rw [if_pos hmissing]
    constructor
    · intro h; cases h
    · intro h
      exact absurd ((missingTargets_eq_nil_iff hkeyed).2 fun _ _ => h.present) hmissing

theorem verify_eq_ok_iff : tree.verify = .ok () ↔ tree.Linked := by
  rw [← fault?_eq_none_iff hkeyed]
  unfold verify
  cases tree.fault? <;> simp

end SchemaLayout.FileTree
