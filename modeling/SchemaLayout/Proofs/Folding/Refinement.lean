import SchemaLayout.Proofs.Folding.Labels
import SchemaLayout.Proofs.Folding.Shapes

/-!
# Refinement on a list of definitions

The search for duplicates counts classes and renumbers them in every round, and it never compares
two labellings. What the counts tell is enough: a round that keeps the count changes no class
(`Labels.Refines.count_lt_or`), so no leaf is told apart anew and shapes that were alike stay alike
(`shape_refine_eq`).

Here definitions are any list, also one that has a name twice; then the last definition of the name
is the one that is referred to. Unions inside unions, at which folding fails before it searches, do
no harm to the search.

* `classes_settled`: the search ends in time, each round refines the one before it, and definitions
  of one class have one shape under the classes themselves.
-/
namespace SchemaLayout.Folding

variable {scope : FoldScope} {definitions : List TypeDefinition} {labels : Labels}

/-- Each reference to a definition is to one of the list. -/
def Resolved (definitions : List TypeDefinition) : Prop :=
  ∀ d ∈ definitions, ∀ name, .definition name ∈ d.leaves → name ∈ definitions.map (·.name)

/-- The labels after some rounds of refinement. -/
def labelsAfter (scope : FoldScope) (definitions : List TypeDefinition) (rounds : Nat) : Labels :=
  (refine scope definitions)^[rounds] (initialLabels scope definitions)

/-- A round adds no class. -/
def Idle (scope : FoldScope) (definitions : List TypeDefinition) (round : Nat) : Prop :=
  (labelsAfter scope definitions (round + 1)).count = (labelsAfter scope definitions round).count

instance (round : Nat) : Decidable (Idle scope definitions round) :=
  inferInstanceAs (Decidable (_ = _))

theorem labelsAfter_succ (round : Nat) : labelsAfter scope definitions (round + 1)
    = refine scope definitions (labelsAfter scope definitions round) :=
  Function.iterate_succ_apply' _ _ _

theorem covers_labelsAfter (round : Nat) :
    (labelsAfter scope definitions round).Covers definitions :=
  covers_iterate covers_initialLabels round

/-! ## One round -/

theorem refines_labelsAfter (round : Nat) : Labels.Refines definitions
    (labelsAfter scope definitions (round + 1)) (labelsAfter scope definitions round) := by
  rw [labelsAfter_succ]
  exact refines_refine (covers_labelsAfter round)

theorem Idle.refines {round : Nat} (h : Idle scope definitions round) : Labels.Refines definitions
    (labelsAfter scope definitions round) (labelsAfter scope definitions (round + 1)) :=
  ((refines_labelsAfter round).count_lt_or (covers_labelsAfter _) (covers_labelsAfter _)).2 h

/-- When a round splits no class, definitions that it leaves together have one shape under the new
labels, too. -/
theorem shape_refine_eq (hresolved : Resolved definitions) (hlabels : labels.Covers definitions)
    (hsame : Labels.Refines definitions labels (refine scope definitions labels)) {i j : Nat}
    {d e : TypeDefinition} (hi : definitions[i]? = some d) (hj : definitions[j]? = some e)
    (hij : (refine scope definitions labels).SameLabel i j) :
    shape scope (refine scope definitions labels) i d
      = shape scope (refine scope definitions labels) j e := by
  have hcoarser : Coarser (leafShape labels) (leafShape (refine scope definitions labels)) d e := by
    refine (sees_leafShape labels).coarser (hresolved d (List.mem_of_getElem? hi))
      (hresolved e (List.mem_of_getElem? hj)) (sees_leafShape _) fun m n hm hn hmn => ?_
    -- names stand for the positions that they refer to
    refine ((covers_refine hlabels).of_eq_iff hm hn).2 ?_
    exact hsame _ _ (position_lt hm) (position_lt hn) ((hlabels.of_eq_iff hm hn).1 hmn)
  exact hcoarser.shape_eq ((sameLabel_refine hlabels hi hj).1 hij).2

/-! ## The whole search -/

/-- The search ends with the first round that adds no class, and there is one in time. -/
theorem classes_eq_labelsAfter (scope : FoldScope) (definitions : List TypeDefinition) :
    ∃ last ≤ definitions.length, Idle scope definitions last ∧
      (∀ earlier < last, ¬Idle scope definitions earlier) ∧
      classes scope definitions = labelsAfter scope definitions (last + 1) := by
  have hinitial : (initialLabels scope definitions).Covers definitions := covers_initialLabels
  have hfuel : definitions.length
      < definitions.length + 1 + (initialLabels scope definitions).count := by omega
  obtain ⟨last, hlast, hclasses, hidle, hbefore⟩ := settle_eq_iterate hinitial hfuel
  exact ⟨last, Nat.lt_succ_iff.1 hlast, hidle, hbefore, hclasses⟩

theorem covers_classes : (classes scope definitions).Covers definitions := by
  obtain ⟨last, -, -, -, hclasses⟩ := classes_eq_labelsAfter scope definitions
  rw [hclasses]
  exact covers_labelsAfter _

theorem shape_classes_eq (hresolved : Resolved definitions) {i j : Nat} {d e : TypeDefinition}
    (hi : definitions[i]? = some d) (hj : definitions[j]? = some e)
    (hij : (classes scope definitions).SameLabel i j) :
    shape scope (classes scope definitions) i d = shape scope (classes scope definitions) j e := by
  obtain ⟨last, -, hidle, -, hclasses⟩ := classes_eq_labelsAfter scope definitions
  have hsame := hidle.refines
  rw [labelsAfter_succ] at hclasses hsame
  rw [hclasses] at hij ⊢
  exact shape_refine_eq hresolved (covers_labelsAfter last) hsame hi hj hij

/-- What a search for duplicates does on a list of definitions, from the first round to the classes
that it returns. -/
structure SettledSearch (scope : FoldScope) (definitions : List TypeDefinition) : Prop where
  /-- It ends with the first round that adds no class, after at most one round more than there are
  definitions. -/
  ends : ∃ last ≤ definitions.length, Idle scope definitions last ∧
    (∀ earlier < last, ¬Idle scope definitions earlier) ∧
    classes scope definitions = labelsAfter scope definitions (last + 1)
  /-- A round leaves together what was together and has one shape under the labels before it. -/
  splits : ∀ (round i j : Nat) (d e : TypeDefinition), definitions[i]? = some d →
    definitions[j]? = some e → ((labelsAfter scope definitions (round + 1)).SameLabel i j ↔
      (labelsAfter scope definitions round).SameLabel i j ∧
        shape scope (labelsAfter scope definitions round) i d
          = shape scope (labelsAfter scope definitions round) j e)
  /-- So its classes are parts of the classes before it. -/
  refines : ∀ round, Labels.Refines definitions (labelsAfter scope definitions (round + 1))
    (labelsAfter scope definitions round)
  /-- A round that adds no class changes none. -/
  unchanged : ∀ round, Idle scope definitions round → ∀ i j, i < definitions.length →
    j < definitions.length → ((labelsAfter scope definitions (round + 1)).SameLabel i j ↔
      (labelsAfter scope definitions round).SameLabel i j)
  /-- Definitions of one class have one shape under the classes themselves. -/
  stable : ∀ (i j : Nat) (d e : TypeDefinition), definitions[i]? = some d →
    definitions[j]? = some e → (classes scope definitions).SameLabel i j →
      shape scope (classes scope definitions) i d = shape scope (classes scope definitions) j e

/-- **Refinement settles.** On every list of definitions whose references are to definitions of the
list, in every scope, the search ends in time, each round refines the classes before it, one that
adds no class changes none, and the classes at the end are stable. -/
theorem classes_settled (scope : FoldScope) (definitions : List TypeDefinition)
    (hresolved : Resolved definitions) : SettledSearch scope definitions where
  ends := classes_eq_labelsAfter scope definitions
  splits round i j d e hi hj := by
    rw [labelsAfter_succ]
    exact sameLabel_refine (covers_labelsAfter round) hi hj
  refines := refines_labelsAfter
  unchanged round hidle i j hi hj :=
    ⟨refines_labelsAfter round i j hi hj, hidle.refines i j hi hj⟩
  stable _ _ _ _ hi hj := shape_classes_eq hresolved hi hj

/-- A chain that takes two rounds. The name `Node` stands for the last definition that has it, which
is the only one without a `next`. -/
def shadowedNode : List TypeDefinition :=
  [⟨"Head", .input, [⟨"next", .definition "Tail", false, false⟩], none⟩,
    ⟨"Other", .input, [⟨"next", .definition "Node", false, false⟩], none⟩,
    ⟨"Tail", .input, [⟨"next", .definition "Node", false, false⟩], none⟩,
    ⟨"Node", .input, [⟨"next", .definition "Node", false, false⟩], none⟩,
    ⟨"Node", .input, [⟨"value", .scalar .int, false, false⟩], none⟩]

theorem classes_settled_shadowedNode : Resolved shadowedNode ∧
    ¬Idle .input shadowedNode 0 ∧ Idle .input shadowedNode 1 ∧
    (classes .input shadowedNode).map (·.2) = [0, 1, 1, 1, 2] ∧
    SettledSearch .input shadowedNode := by
  have hresolved : Resolved shadowedNode := by
    intro d hd name hleaf
    simp only [shadowedNode, List.mem_cons, List.not_mem_nil, or_false] at hd
    rcases hd with rfl | rfl | rfl | rfl | rfl <;>
      simp_all [TypeDefinition.leaves, TypeRef.members, shadowedNode]
  exact ⟨hresolved, by decide, by decide, by decide,
    classes_settled .input shadowedNode hresolved⟩

end SchemaLayout.Folding
