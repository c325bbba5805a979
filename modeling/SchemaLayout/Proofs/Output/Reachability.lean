import Mathlib.Logic.Basic
import Mathlib.Logic.Relation
import SchemaLayout.Output.Graph

/-!
# What a graph search finds

In a graph whose edges join its nodes, the search finds exactly what its starts lead to
(`mem_search_nil_iff`): it never marks anything else, and it leaves no edge out of what it marked
(`search_closed`). So `reachable` is reachability in any number of steps and `isCyclic` asks for a
walk of one step or more back to its start.
-/
namespace SchemaLayout.Graph

open Relation

variable {graph : Graph}

def Edge (graph : Graph) (a b : String) : Prop := (a, b) ∈ graph.edges

/-- Edges join nodes. -/
def Closed (graph : Graph) : Prop := ∀ {a b}, graph.Edge a b → a ∈ graph.nodes ∧ b ∈ graph.nodes

theorem mem_successors_iff {a b : String} : b ∈ graph.successors a ↔ graph.Edge a b := by
  simp only [successors, Edge, List.mem_map, List.mem_filter, beq_iff_eq]
  constructor
  · rintro ⟨⟨source, target⟩, ⟨hmem, rfl⟩, rfl⟩
    exact hmem
  · intro hmem
    exact ⟨(a, b), ⟨hmem, rfl⟩, rfl⟩

/-! ## The search -/

/-- What is marked was marked before or is led to by a pending node. -/
theorem search_sound (seen pending : List String) {node : String}
    (h : node ∈ graph.search seen pending) :
    node ∈ seen ∨ ∃ start ∈ pending, start ∈ graph.nodes ∧ ReflTransGen graph.Edge start node := by
  induction seen, pending using search.induct graph with
  | case1 seen =>
    rw [search] at h
    exact Or.inl h
  | case2 seen next rest hnew ih =>
    rw [search, dif_pos hnew] at h
    have hnext : ∃ start ∈ next :: rest, start ∈ graph.nodes ∧
        ReflTransGen graph.Edge start next := ⟨next, List.mem_cons_self, hnew.1, .refl⟩
    rcases ih h with hseen | ⟨start, hstart, hnode, hpath⟩
    · rcases List.mem_cons.1 hseen with rfl | hseen
      · exact Or.inr hnext
      · exact Or.inl hseen
    · rcases List.mem_append.1 hstart with hsucc | hrest
      · exact Or.inr ⟨next, List.mem_cons_self, hnew.1,
          ReflTransGen.head (mem_successors_iff.1 hsucc) hpath⟩
      · exact Or.inr ⟨start, List.mem_cons_of_mem _ hrest, hnode, hpath⟩
  | case3 seen next rest hold ih =>
    rw [search, dif_neg hold] at h
    rcases ih h with hseen | ⟨start, hstart, hnode, hpath⟩
    · exact Or.inl hseen
    · exact Or.inr ⟨start, List.mem_cons_of_mem _ hstart, hnode, hpath⟩

theorem mem_search (seen pending : List String) {node : String}
    (h : node ∈ seen ∨ node ∈ pending ∧ node ∈ graph.nodes) :
    node ∈ graph.search seen pending := by
  induction seen, pending using search.induct graph with
  | case1 seen =>
    rw [search]
    rcases h with h | ⟨h, -⟩
    · exact h
    · cases h
  | case2 seen next rest hnew ih =>
    rw [search, dif_pos hnew]
    refine ih ?_
    rcases h with h | ⟨h, hnode⟩
    · exact Or.inl (List.mem_cons_of_mem _ h)
    · rcases List.mem_cons.1 h with rfl | h
      · exact Or.inl List.mem_cons_self
      · exact Or.inr ⟨List.mem_append_right _ h, hnode⟩
  | case3 seen next rest hold ih =>
    rw [search, dif_neg hold]
    refine ih ?_
    rcases h with h | ⟨h, hnode⟩
    · exact Or.inl h
    · rcases List.mem_cons.1 h with rfl | h
      · exact Or.inl (not_not.1 fun hout => hold ⟨hnode, hout⟩)
      · exact Or.inr ⟨h, hnode⟩

/-- When edges out of the marked nodes lead to marked or pending ones, the search leaves no edge out
of what it marks. -/
theorem search_closed (hgraph : graph.Closed) (seen pending : List String)
    (h : ∀ a ∈ seen, ∀ b, graph.Edge a b → b ∈ seen ∨ b ∈ pending) :
    ∀ a ∈ graph.search seen pending, ∀ b, graph.Edge a b → b ∈ graph.search seen pending := by
  induction seen, pending using search.induct graph with
  | case1 seen =>
    rw [search]
    intro a ha b hab
    rcases h a ha b hab with hb | hb
    · exact hb
    · cases hb
  | case2 seen next rest hnew ih =>
    rw [search, dif_pos hnew]
    refine ih fun a ha b hab => ?_
    rcases List.mem_cons.1 ha with rfl | ha
    · exact Or.inr (List.mem_append_left _ (mem_successors_iff.2 hab))
    · rcases h a ha b hab with hb | hb
      · exact Or.inl (List.mem_cons_of_mem _ hb)
      · rcases List.mem_cons.1 hb with rfl | hb
        · exact Or.inl List.mem_cons_self
        · exact Or.inr (List.mem_append_right _ hb)
  | case3 seen next rest hold ih =>
    rw [search, dif_neg hold]
    refine ih fun a ha b hab => ?_
    rcases h a ha b hab with hb | hb
    · exact Or.inl hb
    · rcases List.mem_cons.1 hb with rfl | hb
      · exact Or.inl (not_not.1 fun hout => hold ⟨(hgraph hab).2, hout⟩)
      · exact Or.inr hb

/-- The search finds exactly what the starts lead to. -/
theorem mem_search_nil_iff (hgraph : graph.Closed) {pending : List String} {node : String} :
    node ∈ graph.search [] pending ↔
      ∃ start ∈ pending, start ∈ graph.nodes ∧ ReflTransGen graph.Edge start node := by
  constructor
  · intro h
    exact (search_sound [] pending h).resolve_left List.not_mem_nil
  · rintro ⟨start, hstart, hnode, hpath⟩
    induction hpath with
    | refl => exact mem_search [] pending (Or.inr ⟨hstart, hnode⟩)
    | tail _ hab ih =>
      exact search_closed hgraph [] pending (fun a ha => by cases ha) _ ih _ hab

/-! ## Reachability and cycles -/

theorem mem_reachable_iff (hgraph : graph.Closed) {start node : String}
    (hstart : start ∈ graph.nodes) :
    node ∈ graph.reachable start ↔ ReflTransGen graph.Edge start node := by
  unfold reachable
  rw [mem_search_nil_iff hgraph]
  simp [hstart]

theorem onCycle_iff (hgraph : graph.Closed) {node : String} :
    graph.onCycle node = true ↔ TransGen graph.Edge node node := by
  unfold onCycle
  rw [List.contains_iff_mem, mem_search_nil_iff hgraph, TransGen.head'_iff]
  simp only [mem_successors_iff]
  constructor
  · rintro ⟨next, hnext, -, hpath⟩
    exact ⟨next, hnext, hpath⟩
  · rintro ⟨next, hnext, hpath⟩
    exact ⟨next, hnext, (hgraph hnext).2, hpath⟩

theorem isCyclic_iff (hgraph : graph.Closed) :
    graph.isCyclic = true ↔ ∃ node, TransGen graph.Edge node node := by
  unfold isCyclic
  simp only [List.any_eq_true, onCycle_iff hgraph]
  constructor
  · rintro ⟨node, -, hcycle⟩
    exact ⟨node, hcycle⟩
  · rintro ⟨node, hcycle⟩
    obtain ⟨next, hnext, -⟩ := TransGen.head'_iff.1 hcycle
    exact ⟨node, (hgraph hnext).1, hcycle⟩

end SchemaLayout.Graph
