/-!
# Directed graphs of names

A graph lists its nodes, and its edges in the order in which they were added. `Graph.reachable` is
what a node leads to, `Graph.isCyclic` asks for a cycle, and `Graph.cycleName?` names one: the first
node on a cycle in the order of `Graph.finishOrder` gives a component, and the smallest name of that
component stands for it.
-/
namespace SchemaLayout

/-- A directed graph on names. -/
structure Graph where
  nodes : List String
  edges : List (String × String)

namespace Graph

/-- Where the edges of a node lead, in the order of the edges. -/
def successors (graph : Graph) (node : String) : List String :=
  (graph.edges.filter (·.1 == node)).map (·.2)

/-- Where the edges to a node come from, in the order of the edges. -/
def predecessors (graph : Graph) (node : String) : List String :=
  (graph.edges.filter (·.2 == node)).map (·.1)

/-- The nodes that are not among the given ones. -/
def unseen (graph : Graph) (seen : List String) : List String :=
  graph.nodes.filter (!seen.contains ·)

theorem length_unseen_cons_lt {graph : Graph} {seen : List String} {node : String}
    (hn : node ∈ graph.nodes) (hs : node ∉ seen) :
    (graph.unseen (node :: seen)).length < (graph.unseen seen).length := by
  unfold unseen
  have hsub : graph.nodes.filter (fun n => !(node :: seen).contains n)
      = (graph.nodes.filter (fun n => !seen.contains n)).filter (· != node) := by
    rw [List.filter_filter]
    refine List.filter_congr fun n _ => ?_
    by_cases h : n = node <;> simp [h]
  rw [hsub, List.length_filter_lt_length_iff_exists]
  exact ⟨node, List.mem_filter.2 ⟨hn, by simpa using hs⟩, by simp⟩

/-! ## Reachability -/

/-- The nodes that can be reached from those still to be visited, with those seen before. -/
def search (graph : Graph) (seen : List String) : (pending : List String) → List String
  | [] => seen
  | node :: rest =>
    if _new : node ∈ graph.nodes ∧ node ∉ seen then
      search graph (node :: seen) (graph.successors node ++ rest)
    else search graph seen rest
termination_by pending => ((graph.unseen seen).length, pending.length)
decreasing_by
  · exact Prod.Lex.left _ _ (length_unseen_cons_lt _new.1 _new.2)
  · exact Prod.Lex.right _ (Nat.lt_succ_self _)

/-- The nodes that a node leads to in any number of steps, itself included. -/
def reachable (graph : Graph) (node : String) : List String :=
  graph.search [] [node]

/-- Whether one step or more lead from a node back to it. -/
def onCycle (graph : Graph) (node : String) : Bool :=
  (graph.search [] (graph.successors node)).contains node

/-- Whether the graph has a cycle, be it of one node. -/
def isCyclic (graph : Graph) : Bool :=
  graph.nodes.any graph.onCycle

/-- The nodes that a node leads to and that lead back to it. -/
def component (graph : Graph) (node : String) : List String :=
  (graph.reachable node).filter fun other => (graph.reachable other).contains node

/-! ## Naming a cycle -/

/-- A step of a depth-first walk against the edges. -/
inductive Walk where
  | enter (node : String)
  | leave (node : String)

/-- Walks on against the edges, where `left` are the nodes left before, the last one first. -/
def walk (graph : Graph) (seen left : List String) : (pending : List Walk) → List String
  | [] => left
  | .leave node :: rest => walk graph seen (node :: left) rest
  | .enter node :: rest =>
    if _new : node ∈ graph.nodes ∧ node ∉ seen then
      walk graph (node :: seen) left
        ((graph.predecessors node).map .enter ++ .leave node :: rest)
    else walk graph seen left rest
termination_by pending => ((graph.unseen seen).length, pending.length)
decreasing_by
  · exact Prod.Lex.right _ (Nat.lt_succ_self _)
  · exact Prod.Lex.left _ _ (length_unseen_cons_lt _new.1 _new.2)
  · exact Prod.Lex.right _ (Nat.lt_succ_self _)

/-- The nodes in the order in which a depth-first walk against the edges leaves them, the last one
first. -/
def finishOrder (graph : Graph) : List String :=
  graph.walk [] [] (graph.nodes.map .enter)

/-- The smallest name of a list. -/
def smallest? : List String → Option String
  | [] => none
  | name :: rest =>
    some (rest.foldl (fun least other => if other < least then other else least) name)

/-- The name that stands for a cycle, if there is one. -/
def cycleName? (graph : Graph) : Option String :=
  (graph.finishOrder.find? graph.onCycle).bind fun node => smallest? (graph.component node)

end Graph

end SchemaLayout
