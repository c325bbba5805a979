import Mathlib.Data.Set.Defs
import SchemaLayout.Proofs.Folding.Refinement

/-!
# Congruences of definitions

A congruence relates definitions of one kind whose fields agree up to itself; which definitions may
be related to others is up to the scope. Congruences are said here without labels: a leaf that
refers to a definition counts as the whole class of that definition.

* `Congruence.shape_eq`: a congruence that is within the classes of a labelling gives shapes that
  are alike.
* `congruence_sameClass`: a labelling under which shapes are alike wherever labels are gives a
  congruence.
-/
namespace SchemaLayout.Folding

/-- A leaf with the class of the definition in the place of its name. -/
inductive LeafClass where
  | scalar (kind : ScalarKind)
  | enumeration (name : String)
  | definition (members : Set String)
  | union (members : List TypeRef)

/-- The leaf up to a relation. -/
def leafClass (R : String → String → Prop) : TypeRef → LeafClass
  | .scalar kind => .scalar kind
  | .enumeration name => .enumeration name
  | .definition name => .definition {other | R name other}
  | .union members => .union members

open Classical in
/-- The leaves of a type up to a relation, without later repeats. -/
noncomputable def classLeaves (R : String → String → Prop) (ref : TypeRef) : List LeafClass :=
  (ref.members.map (leafClass R)).eraseDups

/-- Two fields agree up to a relation on definitions. -/
structure FieldsAgree (R : String → String → Prop) (a b : Field) : Prop where
  name : a.name = b.name
  nullable : a.nullable = b.nullable
  isList : a.isList = b.isList
  leaves : classLeaves R a.type = classLeaves R b.type

/-- An equivalence of the set's definitions under which related definitions have one kind, are in
the scope unless they are the same, and have fields that agree one by one. -/
structure Congruence (set : DefinitionSet) (scope : FoldScope) (R : String → String → Prop) :
    Prop where
  defined : ∀ {a b}, R a b → a ∈ set.types ∧ b ∈ set.types
  refl : ∀ {a}, a ∈ set.types → R a a
  symm : ∀ {a b}, R a b → R b a
  trans : ∀ {a b c}, R a b → R b c → R a c
  kind : ∀ {a b d e}, R a b → set.types.get? a = some d → set.types.get? b = some e →
    d.kind = e.kind
  inScope : ∀ {a b d e}, R a b → set.types.get? a = some d → set.types.get? b = some e → a ≠ b →
    scope.includes d.kind = true ∧ scope.includes e.kind = true
  fields : ∀ {a b d e}, R a b → set.types.get? a = some d → set.types.get? b = some e →
    List.Forall₂ (FieldsAgree R) d.fields e.fields

/-- What the search for duplicates asks of a set: references to definitions that are there, and no
union in a union. -/
structure Foldable (set : DefinitionSet) : Prop extends set.Keyed where
  resolved : ∀ {name d target}, set.types.get? name = some d → .definition target ∈ d.leaves →
    target ∈ set.types
  flat : ∀ {name d leaf}, set.types.get? name = some d → leaf ∈ d.leaves → leaf.isUnion = false

end SchemaLayout.Folding

namespace SchemaLayout

open Folding

theorem DefinitionSet.Valid.foldable {set : DefinitionSet} (h : set.Valid) : Foldable set where
  toKeyed := h.toKeyed
  resolved hget hleaf := h.resolved hget _ hleaf
  flat hget hleaf := by
    obtain ⟨field, hfield, hmem⟩ := TypeDefinition.mem_leaves_iff.1 hleaf
    exact TypeRef.isUnion_of_mem_members ((h.wellFormed hget).normal field hfield) hmem

theorem Folding.Foldable.shapeFault?_eq_none {set : DefinitionSet} (h : Foldable set) :
    set.shapeFault? = none := by
  unfold DefinitionSet.shapeFault?
  rw [List.findSome?_eq_none_iff]
  intro reference href
  obtain ⟨name, definition, hget, field, hfield, leaf, hmem, rfl⟩ :=
    DefinitionSet.mem_references_iff.1 href
  have hleaf : leaf ∈ definition.leaves := TypeDefinition.mem_leaves_iff.2 ⟨field, hfield, hmem⟩
  cases leaf with
  | scalar kind => rfl
  | enumeration other => rfl
  | definition target => exact if_pos (h.resolved hget hleaf)
  | union members => exact absurd (h.flat hget hleaf) (by simp [TypeRef.isUnion])

end SchemaLayout

namespace SchemaLayout.Folding

/-! ## Definitions of a set in a row -/

theorem mem_values {set : DefinitionSet} {name : String} {definition : TypeDefinition}
    (h : set.types.get? name = some definition) : definition ∈ set.types.values :=
  NameMap.mem_values_iff.2 ⟨name, h⟩

section Keyed

variable {set : DefinitionSet} (hset : set.Keyed)
include hset

theorem map_name_values : set.types.values.map (·.name) = set.types.keys :=
  NameMap.map_values_eq_keys hset.types

theorem nodup_names : (set.types.values.map (·.name)).Nodup := by
  rw [map_name_values hset]
  exact set.types.nodup_keys

theorem get?_name {definition : TypeDefinition} (h : definition ∈ set.types.values) :
    set.types.get? definition.name = some definition := by
  obtain ⟨name, hget⟩ := NameMap.mem_values_iff.1 h
  rw [hset.types hget]
  exact hget

theorem mem_names {name : String} (h : name ∈ set.types) :
    name ∈ set.types.values.map (·.name) := by
  rw [map_name_values hset]
  exact NameMap.mem_keys_iff.2 h

/-- Names of the set have one label when their positions do. -/
theorem of_eq_iff {labels : Labels} (hlabels : labels.Covers set.types.values) {a b : String}
    (ha : a ∈ set.types) (hb : b ∈ set.types) : labels.of a = labels.of b ↔
      labels.SameLabel (position set.types.values a) (position set.types.values b) :=
  hlabels.of_eq_iff (mem_names hset ha) (mem_names hset hb)

theorem getElem?_position {name : String} {definition : TypeDefinition}
    (h : set.types.get? name = some definition) :
    set.types.values[position set.types.values name]? = some definition := by
  obtain ⟨i, hi⟩ := List.mem_iff_getElem?.1 (mem_values h)
  rw [← hset.types h, position_name (nodup_names hset) hi]
  exact hi

theorem position_ne {a b : String} {d e : TypeDefinition} (ha : set.types.get? a = some d)
    (hb : set.types.get? b = some e) (hne : a ≠ b) :
    position set.types.values a ≠ position set.types.values b := by
  intro hposition
  have hsame := getElem?_position hset ha
  rw [hposition, getElem?_position hset hb] at hsame
  cases hsame
  exact hne ((hset.types ha).symm.trans (hset.types hb))

end Keyed

/-! ## Views of the leaves of a set -/

theorem sees_leafClass (R : String → String → Prop) :
    Sees (leafClass R) fun name => {other | R name other} where
  definition m n := by simp [leafClass]
  other x y h := by cases x <;> cases y <;> simp_all [leafClass]

instance : Nonempty LeafClass := ⟨.scalar .string⟩

section Foldable

variable {set : DefinitionSet} (hset : Foldable set)
include hset

theorem Foldable.resolved_values : Resolved set.types.values := fun _ hd _ hleaf =>
  mem_names hset.toKeyed (hset.resolved (get?_name hset.toKeyed hd) hleaf)

/-- A view that tells no two names of the set apart that another view does not is coarser on the
definitions of the set. -/
theorem Foldable.coarser {d e : TypeDefinition} (hd : d ∈ set.types.values)
    (he : e ∈ set.types.values) {β β' γ γ' : Type} {f : TypeRef → β} {g : TypeRef → β'}
    {key : String → γ} {key' : String → γ'} (hf : Sees f key) (hg : Sees g key')
    (hsub : ∀ m n, m ∈ set.types → n ∈ set.types → key m = key n → key' m = key' n) :
    Coarser f g d e :=
  hf.coarser (fun _ => hset.resolved (get?_name hset.toKeyed hd))
    (fun _ => hset.resolved (get?_name hset.toKeyed he)) hg hsub

/-! ## Congruences and labellings -/

variable {scope : FoldScope} {labels : Labels}

/-- A congruence that is within the classes of a labelling gives shapes that are alike. -/
theorem Congruence.shape_eq {R : String → String → Prop} (hR : Congruence set scope R)
    (hsub : ∀ {a b}, R a b → labels.of a = labels.of b) {a b : String} {d e : TypeDefinition}
    (hab : R a b) (ha : set.types.get? a = some d) (hb : set.types.get? b = some e) :
    shape scope labels (position set.types.values a) d
      = shape scope labels (position set.types.values b) e := by
  classical
  have hcoarser : Coarser (leafClass R) (leafShape labels) d e := by
    refine hset.coarser (mem_values ha) (mem_values hb) (sees_leafClass R) (sees_leafShape labels)
      fun m n _ hn hmn => hsub ?_
    -- `n` is in its own class, so in the class of `m`
    have hself : n ∈ {other | R n other} := hR.refl hn
    rw [← hmn] at hself
    exact hself
  rw [shape_eq_iff]
  refine ⟨hR.kind hab ha hb, fun hne => hR.inScope hab ha hb fun hname => hne (by rw [hname]), ?_⟩
  refine forall₂_of_mem (fun f hf g hg hfg => ?_) (hR.fields hab ha hb)
  exact fieldShape_eq_iff.2 ⟨hfg.name, hfg.nullable, hfg.isList,
    hcoarser.eraseDups_eq hf hg hfg.leaves⟩

def SameClass (set : DefinitionSet) (labels : Labels) (a b : String) : Prop :=
  a ∈ set.types ∧ b ∈ set.types ∧ labels.of a = labels.of b

/-- A labelling that gives shapes that are alike wherever labels are, gives a congruence. -/
theorem congruence_sameClass (hlabels : labels.Covers set.types.values)
    (hstable : ∀ {i j : Nat} {d e : TypeDefinition}, set.types.values[i]? = some d →
      set.types.values[j]? = some e → labels.SameLabel i j →
      shape scope labels i d = shape scope labels j e) :
    Congruence set scope (SameClass set labels) := by
  classical
  have hshape : ∀ {a b d e}, SameClass set labels a b → set.types.get? a = some d →
      set.types.get? b = some e → shape scope labels (position set.types.values a) d
        = shape scope labels (position set.types.values b) e := by
    intro a b d e hab ha hb
    refine hstable (getElem?_position hset.toKeyed ha) (getElem?_position hset.toKeyed hb) ?_
    exact (of_eq_iff hset.toKeyed hlabels hab.1 hab.2.1).1 hab.2.2
  refine ⟨fun h => ⟨h.1, h.2.1⟩, fun h => ⟨h, h, rfl⟩, fun h => ⟨h.2.1, h.1, h.2.2.symm⟩,
    fun h h' => ⟨h.1, h'.2.1, h.2.2.trans h'.2.2⟩, ?_, ?_, ?_⟩
  · intro a b d e hab ha hb
    exact (shape_eq_iff.1 (hshape hab ha hb)).1
  · intro a b d e hab ha hb hne
    exact (shape_eq_iff.1 (hshape hab ha hb)).2.1 (position_ne hset.toKeyed ha hb hne)
  · intro a b d e hab ha hb
    have hcoarser : Coarser (leafShape labels) (leafClass (SameClass set labels)) d e := by
      refine hset.coarser (mem_values ha) (mem_values hb) (sees_leafShape labels)
        (sees_leafClass _) fun m n hm hn hmn => ?_
      simp only [SameClass, hm, hn, hmn]
    refine forall₂_of_mem (fun f hf g hg hfg => ?_) (shape_eq_iff.1 (hshape hab ha hb)).2.2
    obtain ⟨hname, hnull, hlist, hleaves⟩ := fieldShape_eq_iff.1 hfg
    exact ⟨hname, hnull, hlist, hcoarser.eraseDups_eq hf hg hleaves⟩

end Foldable

end SchemaLayout.Folding
