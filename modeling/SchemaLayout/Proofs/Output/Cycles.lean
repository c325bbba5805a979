import SchemaLayout.Proofs.Output.Reachability

/-!
# Naming a cycle

The walk against the edges leaves every node (`mem_finishOrder`): a node that it enters is due to be
left from then on (`Due`). So where there is a cycle, a node on one is found, and the name that
stands for it is the smallest of the nodes that lead there and back (`exists_cycleName?`).
-/
namespace SchemaLayout.Graph

open Relation

variable {graph : Graph}

/-! ## The order of leaving -/

/-- The walk has left the node, or is to leave it. -/
def Due (left : List String) (pending : List Walk) (node : String) : Prop :=
  node ∈ left ∨ .leave node ∈ pending

/-- When all that was entered is due, the walk leaves what is due and what it is still to enter. -/
theorem mem_walk (seen left : List String) (pending : List Walk)
    (hseen : ∀ node ∈ seen, Due left pending node) {node : String}
    (h : Due left pending node ∨ .enter node ∈ pending ∧ node ∈ graph.nodes) :
    node ∈ graph.walk seen left pending := by
  induction seen, left, pending using walk.induct graph with
  | case1 seen left =>
    rw [walk]
    simpa [Due] using h
  | case2 seen left next rest ih =>
    rw [walk]
    -- leaving a node keeps it due
    have hdue : ∀ other, Due left (.leave next :: rest) other → Due (next :: left) rest other := by
      grind [Due]
    refine ih (fun other hother => hdue other (hseen other hother)) ?_
    rcases h with h | ⟨henter, hnode⟩
    · exact Or.inl (hdue node h)
    · exact Or.inr ⟨by simpa using henter, hnode⟩
  | case3 seen left next rest hnew ih =>
    rw [walk, dif_pos hnew]
    let pending := (graph.predecessors next).map Walk.enter ++ .leave next :: rest
    have hnext : Due left pending next := Or.inr (by simp [pending])
    have hdue : ∀ other, Due left (.enter next :: rest) other → Due left pending other := by
      grind [Due]
    refine ih (fun other hother => ?_) ?_
    · rcases List.mem_cons.1 hother with rfl | hother
      · exact hnext
      · exact hdue other (hseen other hother)
    · rcases h with h | ⟨henter, hnode⟩
      · exact Or.inl (hdue node h)
      · rcases List.mem_cons.1 henter with hsame | hrest
        · cases hsame
          exact Or.inl hnext
        · exact Or.inr ⟨by simp [hrest], hnode⟩
  | case4 seen left next rest hold ih =>
    rw [walk, dif_neg hold]
    have hdue : ∀ other, Due left (.enter next :: rest) other → Due left rest other := by
      grind [Due]
    refine ih (fun other hother => hdue other (hseen other hother)) ?_
    rcases h with h | ⟨henter, hnode⟩
    · exact Or.inl (hdue node h)
    · rcases List.mem_cons.1 henter with hsame | hrest
      · -- a node that is not entered again was entered before
        cases hsame
        exact Or.inl (hdue node (hseen node (not_not.1 fun hout => hold ⟨hnode, hout⟩)))
      · exact Or.inr ⟨hrest, hnode⟩

theorem mem_finishOrder {node : String} (h : node ∈ graph.nodes) : node ∈ graph.finishOrder :=
  mem_walk [] [] _ (fun other hother => by cases hother)
    (Or.inr ⟨List.mem_map_of_mem h, h⟩)

/-! ## The name of a cycle -/

theorem foldl_smallest (rest : List String) (name : String) :
    let least := rest.foldl (fun least other => if other < least then other else least) name
    least ∈ name :: rest ∧ ∀ other ∈ name :: rest, least ≤ other := by
  induction rest generalizing name with
  | nil => simp
  | cons next rest ih =>
    obtain ⟨hmem, hle⟩ := ih (if next < name then next else name)
    have hleast : (if next < name then next else name) ≤ name ∧
        (if next < name then next else name) ≤ next := by
      split
      · rename_i hlt
        exact ⟨String.not_lt.1 (String.lt_asymm hlt), String.le_refl _⟩
      · rename_i hge
        exact ⟨String.le_refl _, String.not_lt.1 hge⟩
    have hfirst := hle _ List.mem_cons_self
    refine ⟨?_, fun other hother => ?_⟩
    · rcases List.mem_cons.1 hmem with heq | hrest
      · rw [List.foldl_cons, heq]
        split <;> simp
      · exact List.mem_cons_of_mem _ (List.mem_cons_of_mem _ hrest)
    · rcases List.mem_cons.1 hother with rfl | hother
      · exact String.le_trans hfirst hleast.1
      rcases List.mem_cons.1 hother with rfl | hother
      · exact String.le_trans hfirst hleast.2
      · exact hle other (List.mem_cons_of_mem _ hother)

theorem smallest?_spec {list : List String} {name : String} (h : smallest? list = some name) :
    name ∈ list ∧ ∀ other ∈ list, name ≤ other := by
  cases list with
  | nil => cases h
  | cons first rest =>
    cases h
    exact foldl_smallest rest first

theorem mem_nodes_of_reflTransGen (hgraph : graph.Closed) {node other : String}
    (hnode : node ∈ graph.nodes) (h : ReflTransGen graph.Edge node other) :
    other ∈ graph.nodes := by
  rcases h.cases_tail with rfl | ⟨before, -, hlast⟩
  · exact hnode
  · exact (hgraph hlast).2

theorem mem_component_iff (hgraph : graph.Closed) {node other : String}
    (hnode : node ∈ graph.nodes) : other ∈ graph.component node ↔
      ReflTransGen graph.Edge node other ∧ ReflTransGen graph.Edge other node := by
  unfold component
  rw [List.mem_filter, List.contains_iff_mem, mem_reachable_iff hgraph hnode]
  refine and_congr_right fun hpath => ?_
  rw [mem_reachable_iff hgraph (mem_nodes_of_reflTransGen hgraph hnode hpath)]

/-- Where there is a cycle, one is named by a node that leads back to itself, the smallest of those
that it leads to and that lead back to it. -/
theorem exists_cycleName? (hgraph : graph.Closed) (hcyclic : graph.isCyclic = true) :
    ∃ name, graph.cycleName? = some name ∧ TransGen graph.Edge name name ∧
      ∀ other, ReflTransGen graph.Edge name other → ReflTransGen graph.Edge other name →
        name ≤ other := by
  obtain ⟨start, hmem, hstart⟩ := List.any_eq_true.1 hcyclic
  obtain ⟨node, hfound⟩ := Option.isSome_iff_exists.1
    (List.find?_isSome.2 ⟨start, mem_finishOrder hmem, hstart⟩)
  have hcycle : TransGen graph.Edge node node :=
    (onCycle_iff hgraph).1 (List.find?_some hfound)
  obtain ⟨next, hnext, -⟩ := TransGen.head'_iff.1 hcycle
  have hnode : node ∈ graph.nodes := (hgraph hnext).1
  have hself : node ∈ graph.component node := (mem_component_iff hgraph hnode).2 ⟨.refl, .refl⟩
  obtain ⟨name, hname⟩ : ∃ name, smallest? (graph.component node) = some name := by
    cases hlist : graph.component node with
    | nil => rw [hlist] at hself; cases hself
    | cons first rest => exact ⟨_, rfl⟩
  obtain ⟨hin, hle⟩ := smallest?_spec hname
  obtain ⟨hto, hfrom⟩ := (mem_component_iff hgraph hnode).1 hin
  have hnamed := (TransGen.trans_right hfrom hcycle).trans_left hto
  refine ⟨name, ?_, hnamed, fun other hthere hback => ?_⟩
  · unfold cycleName?
    rw [hfound]
    exact hname
  · exact hle other ((mem_component_iff hgraph hnode).2 ⟨hto.trans hthere, hback.trans hfrom⟩)

end SchemaLayout.Graph
