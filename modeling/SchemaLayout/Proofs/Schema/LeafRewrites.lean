import SchemaLayout.Proofs.Schema.Substitution

/-!
# Rewriting leaves twice

Passes rewrite the references of a set one after the other, and some rewrite a reference twice.
Between two rewrites a union may lose members that became equal, or become a leaf when one is left.
Neither can be told from the result.

**Result.** `mapLeaves_fusion`: two rewrites in a row are the composed rewrite, and what a rewrite
gives is `Reduced`, with the rewritten leaves in the order in which they first occur.
-/
namespace SchemaLayout.TypeRef

/-- A leaf, or a union of leaves without repeats that has not just one member. -/
def Reduced : TypeRef → Prop
  | .union members =>
    (∀ member ∈ members, member.isUnion = false) ∧ members.Nodup ∧ members.length ≠ 1
  | _ => True

theorem reduced_of_not_union {ref : TypeRef} (h : ref.isUnion = false) : ref.Reduced := by
  cases ref with
  | union members => cases h
  | scalar kind => trivial
  | enumeration name => trivial
  | definition name => trivial

theorem reduced_ofMembers {l : List TypeRef} (h : ∀ x ∈ l, x.isUnion = false) :
    (ofMembers l).Reduced := by
  have hleaf : ∀ x ∈ l.eraseDups, x.isUnion = false := fun x hx => h x (List.mem_eraseDups.1 hx)
  unfold ofMembers
  rw [flatMap_members h]
  split
  · rename_i only heq
    exact reduced_of_not_union (hleaf only (by simp [heq]))
  · rename_i hmany
    refine ⟨hleaf, Distinct.nodup_eraseDups l, fun hlength => ?_⟩
    obtain ⟨only, heq⟩ := List.length_eq_one_iff.1 hlength
    exact hmany only heq

variable {f g : TypeRef → Option TypeRef} {ref : TypeRef}

/-- **Fusion.** For a leaf or a union of leaves and two rewrites that give leaves for leaves,
rewriting by the first and then by the second is rewriting by both composed. What the first gives is
a leaf or a union without nested unions and repeats that has not just one member, and its members
are the rewritten leaves, each where it first occurs. -/
theorem mapLeaves_fusion (hf : KeepsLeaves f) (hg : KeepsLeaves g) (href : ref.Flat) :
    (ref.mapLeaves f).mapLeaves g = ref.mapLeaves (andThen f g) ∧
      (ref.mapLeaves f).Reduced ∧
      (ref.mapLeaves f).members = (ref.members.map fun leaf => (f leaf).getD leaf).eraseDups := by
  refine ⟨href.mapLeaves_mapLeaves hf hg, ?_, members_mapLeaves hf href⟩
  rw [mapLeaves_eq_ofMembers hf]
  exact reduced_ofMembers (href.isUnion_replaced hf)

def inputsAsInt : TypeRef → Option TypeRef
  | .definition _ => some (.scalar .int)
  | _ => none

def intAsFloat : TypeRef → Option TypeRef
  | .scalar .int => some (.scalar .float)
  | _ => none

/-- The union becomes a leaf between the two rewrites. -/
theorem mapLeaves_fusion_collapsing :
    KeepsLeaves inputsAsInt ∧ KeepsLeaves intAsFloat ∧
      (union [.scalar .int, .definition "CountOperations"]).Flat ∧
      (union [.scalar .int, .definition "CountOperations"]).mapLeaves inputsAsInt = .scalar .int ∧
      ((union [.scalar .int, .definition "CountOperations"]).mapLeaves inputsAsInt).mapLeaves
          intAsFloat
        = (union [.scalar .int, .definition "CountOperations"]).mapLeaves
          (andThen inputsAsInt intAsFloat) := by
  have hf : KeepsLeaves inputsAsInt := by
    intro leaf new _ h
    cases leaf <;> cases h
    rfl
  have hg : KeepsLeaves intAsFloat := by
    intro leaf new _ h
    unfold intAsFloat at h
    split at h <;> cases h
    rfl
  have href : (union [.scalar .int, .definition "CountOperations"]).Flat := by decide
  exact ⟨hf, hg, href, by decide, (mapLeaves_fusion hf hg href).1⟩

end SchemaLayout.TypeRef
