import Mathlib.Data.List.Forall2
import SchemaLayout.Pass.Folding
import SchemaLayout.Proofs.Names.Distinct
import SchemaLayout.Proofs.Schema.Validity

/-!
# Shapes that agree

Two shapes are alike when kinds, scope and fields agree (`shape_eq_iff`). A leaf can be seen in
several ways: by the label, the class or the new name of the definition that it refers to. Where one
view is coarser than another, fields that agree under the finer agree under the coarser
(`Coarser.eraseDups_eq`), so shapes do (`Coarser.shape_eq`).
-/
namespace SchemaLayout.Folding

/-! ## Leaves seen in two ways -/

/-- The second view of the leaves of two definitions tells no more of them apart than the first. -/
def Coarser {β γ : Type} (f : TypeRef → β) (g : TypeRef → γ) (d e : TypeDefinition) : Prop :=
  ∀ x y, x ∈ d.leaves ++ e.leaves → y ∈ d.leaves ++ e.leaves → f x = f y → g x = g y

theorem Coarser.eraseDups_eq {β γ : Type} [BEq β] [LawfulBEq β] [BEq γ] [LawfulBEq γ] [Nonempty γ]
    {f : TypeRef → β} {g : TypeRef → γ} {d e : TypeDefinition} (h : Coarser f g d e) {a b : Field}
    (ha : a ∈ d.fields) (hb : b ∈ e.fields)
    (hab : (a.type.members.map f).eraseDups = (b.type.members.map f).eraseDups) :
    (a.type.members.map g).eraseDups = (b.type.members.map g).eraseDups := by
  have hmem : ∀ x, x ∈ a.type.members ++ b.type.members → x ∈ d.leaves ++ e.leaves := by
    intro x hx
    rcases List.mem_append.1 hx with hx | hx
    · exact List.mem_append_left _ (TypeDefinition.mem_leaves_iff.2 ⟨a, ha, hx⟩)
    · exact List.mem_append_right _ (TypeDefinition.mem_leaves_iff.2 ⟨b, hb, hx⟩)
  exact Distinct.eraseDups_map_congr (fun x y hx hy => h x y (hmem x hx) (hmem y hy)) hab

theorem forall₂_of_mem {α : Type} {R S : α → α → Prop} {l r : List α}
    (h : ∀ a ∈ l, ∀ b ∈ r, R a b → S a b) (hlr : List.Forall₂ R l r) : List.Forall₂ S l r := by
  induction hlr with
  | nil => exact .nil
  | cons hab _ ih =>
    refine .cons (h _ List.mem_cons_self _ List.mem_cons_self hab) (ih fun a ha b hb => ?_)
    exact h a (List.mem_cons_of_mem _ ha) b (List.mem_cons_of_mem _ hb)

/-- A view of leaves that tells definitions apart as `key` does their names, and everything else
exactly. -/
structure Sees {β γ : Type} (f : TypeRef → β) (key : String → γ) : Prop where
  definition : ∀ m n, f (.definition m) = f (.definition n) ↔ key m = key n
  other : ∀ x y, f x = f y → x = y ∨ ∃ m n, x = .definition m ∧ y = .definition n

theorem sees_leafShape (labels : Labels) : Sees (leafShape labels) labels.of where
  definition m n := by simp [leafShape]
  other x y h := by cases x <;> cases y <;> simp_all [leafShape]

/-- A view that tells no two of the names in use apart that another view does not is coarser. -/
theorem Sees.coarser {d e : TypeDefinition} {known : String → Prop}
    (hd : ∀ name, .definition name ∈ d.leaves → known name)
    (he : ∀ name, .definition name ∈ e.leaves → known name)
    {β β' γ γ' : Type} {f : TypeRef → β} {g : TypeRef → β'} {key : String → γ} {key' : String → γ'}
    (hf : Sees f key) (hg : Sees g key')
    (hsub : ∀ m n, known m → known n → key m = key n → key' m = key' n) : Coarser f g d e := by
  have hknown : ∀ name, .definition name ∈ d.leaves ++ e.leaves → known name := fun name hname =>
    (List.mem_append.1 hname).elim (hd name) (he name)
  intro x y hx hy hxy
  rcases hf.other x y hxy with rfl | ⟨m, n, rfl, rfl⟩
  · rfl
  · have hkey : key m = key n := (hf.definition m n).1 hxy
    exact (hg.definition m n).2 (hsub m n (hknown m hx) (hknown n hy) hkey)

/-! ## Shapes -/

instance : Nonempty LeafShape := ⟨.scalar .string⟩

variable {scope : FoldScope} {labels next : Labels} {d e : TypeDefinition} {i j : Nat}

theorem fieldShape_eq_iff {a b : Field} :
    fieldShape labels a = fieldShape labels b ↔ a.name = b.name ∧ a.nullable = b.nullable ∧
      a.isList = b.isList ∧ (a.type.members.map (leafShape labels)).eraseDups
        = (b.type.members.map (leafShape labels)).eraseDups := by
  simp only [fieldShape, FieldShape.mk.injEq]

theorem shape_eq_iff :
    shape scope labels i d = shape scope labels j e ↔ d.kind = e.kind ∧
      (i ≠ j → scope.includes d.kind = true ∧ scope.includes e.kind = true) ∧
      List.Forall₂ (fun a b => fieldShape labels a = fieldShape labels b) d.fields e.fields := by
  have hfields : List.Forall₂ (fun a b => fieldShape labels a = fieldShape labels b) d.fields
      e.fields ↔ d.fields.map (fieldShape labels) = e.fields.map (fieldShape labels) := by
    rw [← List.forall₂_eq_eq_eq, List.forall₂_map_left_iff, List.forall₂_map_right_iff]
  rw [hfields]
  simp only [shape, Shape.mk.injEq]
  refine and_congr_right fun hkind => and_congr_left fun _ => ?_
  rw [hkind]
  by_cases hscope : scope.includes e.kind = true
  · simp [hscope]
  · simp [hscope]

/-- Labels that tell no more leaves apart keep shapes alike. -/
theorem Coarser.shape_eq (h : Coarser (leafShape labels) (leafShape next) d e)
    (hshape : shape scope labels i d = shape scope labels j e) :
    shape scope next i d = shape scope next j e := by
  obtain ⟨hkind, hscope, hfields⟩ := shape_eq_iff.1 hshape
  refine shape_eq_iff.2 ⟨hkind, hscope, forall₂_of_mem (fun f hf g hg hfg => ?_) hfields⟩
  obtain ⟨hname, hnull, hlist, hleaves⟩ := fieldShape_eq_iff.1 hfg
  exact fieldShape_eq_iff.2 ⟨hname, hnull, hlist, h.eraseDups_eq hf hg hleaves⟩

end SchemaLayout.Folding
