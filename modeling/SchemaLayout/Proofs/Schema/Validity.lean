import SchemaLayout.Proofs.Names.Fallible
import SchemaLayout.Proofs.Names.Lookup
import SchemaLayout.Schema.DefinitionSet

/-!
# Valid sets

`Keyed` says how definitions are held, `Valid` says in addition what is asked of their fields and
references, and `fault?_eq_none_iff` that the check of a set decides it.

* `keyed_ofLists`: a set built from lists of definitions is keyed.
* `fault?_eq_none_iff`: a set has no fault exactly when it is valid.
-/
namespace SchemaLayout

/-! ## Definitions on their own -/

/-- A union has two members or more and none is a union. -/
def TypeRef.Normal : TypeRef → Prop
  | .union members => 2 ≤ members.length ∧ ∀ member ∈ members, member.isUnion = false
  | _ => True

namespace TypeDefinition

def leaves (definition : TypeDefinition) : List TypeRef :=
  definition.fields.flatMap (·.type.members)

/-- Every field has a name of its own and a type in normal form. -/
structure WellFormed (definition : TypeDefinition) : Prop where
  distinct : (definition.fields.map (·.name)).Nodup
  normal : ∀ field ∈ definition.fields, field.type.Normal

theorem mem_leaves_iff {definition : TypeDefinition} {leaf : TypeRef} :
    leaf ∈ definition.leaves ↔ ∃ field ∈ definition.fields, leaf ∈ field.type.members :=
  List.mem_flatMap

theorem mem_definitionNames_iff {definition : TypeDefinition} {name : String} :
    name ∈ definition.definitionNames ↔ .definition name ∈ definition.leaves := by
  have hleaf : ∀ leaf : TypeRef, leaf.definitionName? = some name ↔ leaf = .definition name := by
    intro leaf
    cases leaf <;> simp [TypeRef.definitionName?]
  simp only [definitionNames, TypeRef.definitionNames, mem_leaves_iff, List.mem_flatMap,
    List.mem_filterMap, hleaf, exists_eq_right]

end TypeDefinition

theorem TypeRef.isUnion_of_mem_members {ref leaf : TypeRef} (h : ref.Normal)
    (hleaf : leaf ∈ ref.members) : leaf.isUnion = false := by
  cases ref with
  | union members => exact h.2 leaf hleaf
  | scalar kind => simp only [members, List.mem_singleton] at hleaf; rw [hleaf]; rfl
  | enumeration name => simp only [members, List.mem_singleton] at hleaf; rw [hleaf]; rfl
  | definition name => simp only [members, List.mem_singleton] at hleaf; rw [hleaf]; rfl

/-- A reference in normal form is a union where it has more than one member. -/
theorem TypeRef.Normal.isUnion_iff {ref : TypeRef} (h : ref.Normal) :
    ref.isUnion = true ↔ 2 ≤ ref.members.length := by
  cases ref with
  | union members => exact iff_of_true rfl h.1
  | scalar kind => simp [isUnion, members]
  | enumeration name => simp [isUnion, members]
  | definition name => simp [isUnion, members]

namespace DefinitionSet

/-! ## How definitions are held -/

/-- Every definition is held under its own name, and no name is both a type and an enum. -/
structure Keyed (set : DefinitionSet) : Prop where
  types : ∀ {name definition}, set.types.get? name = some definition → definition.name = name
  enums : ∀ {name definition}, set.enums.get? name = some definition → definition.name = name
  disjoint : ∀ {name}, name ∈ set.types → name ∉ set.enums

theorem keyed_empty : (∅ : DefinitionSet).Keyed where
  types h := by cases h
  enums h := by cases h
  disjoint h := absurd h (NameMap.not_mem_empty _)

theorem containsName_iff {set : DefinitionSet} {name : String} :
    set.containsName name = true ↔ name ∈ set.types ∨ name ∈ set.enums := by
  unfold containsName
  rw [Bool.or_eq_true]
  exact Iff.rfl

theorem Keyed.insertType {set result : DefinitionSet} {definition : TypeDefinition}
    (h : set.Keyed) (hr : set.insertType definition = .ok result) : result.Keyed := by
  unfold DefinitionSet.insertType at hr
  split at hr
  · cases hr
  · rename_i hfree
    cases hr
    rw [containsName_iff, not_or] at hfree
    exact ⟨NameMap.named_insert h.types definition, h.enums,
      NameMap.not_mem_of_mem_insert h.disjoint hfree.2⟩

theorem Keyed.insertEnum {set result : DefinitionSet} {definition : EnumDefinition}
    (h : set.Keyed) (hr : set.insertEnum definition = .ok result) : result.Keyed := by
  unfold DefinitionSet.insertEnum at hr
  split at hr
  · cases hr
  · rename_i hfree
    cases hr
    rw [containsName_iff, not_or] at hfree
    refine ⟨h.types, NameMap.named_insert h.enums definition, fun htype henum => ?_⟩
    exact NameMap.not_mem_of_mem_insert (fun he ht => h.disjoint ht he) hfree.1 henum htype

/-- A set built from lists of definitions is keyed. -/
theorem keyed_ofLists {types : List TypeDefinition} {enums : List EnumDefinition}
    {set : DefinitionSet} (h : ofLists types enums = .ok set) : set.Keyed := by
  unfold ofLists at h
  cases htypes : types.foldlM DefinitionSet.insertType ∅ with
  | error cause => rw [htypes] at h; cases h
  | ok typed =>
    rw [htypes] at h
    exact Fallible.foldlM_keeps Keyed.insertEnum
      (Fallible.foldlM_keeps Keyed.insertType keyed_empty htypes) h

/-! ## References -/

theorem mem_references_iff {set : DefinitionSet} {reference : Reference} :
    reference ∈ set.references ↔ ∃ name definition, set.types.get? name = some definition ∧
      ∃ field ∈ definition.fields, ∃ leaf ∈ field.type.members,
        reference = ⟨definition.name, field.name, leaf⟩ := by
  simp only [references, List.mem_flatMap, List.mem_map, NameMap.mem_values_iff]
  constructor
  · rintro ⟨definition, ⟨name, hget⟩, field, hfield, leaf, hleaf, rfl⟩
    exact ⟨name, definition, hget, field, hfield, leaf, hleaf, rfl⟩
  · rintro ⟨name, definition, hget, field, hfield, leaf, hleaf, rfl⟩
    exact ⟨definition, ⟨name, hget⟩, field, hfield, leaf, hleaf, rfl⟩

/-- What holds of every reference holds of every leaf of every definition. -/
theorem forall_references_iff {set : DefinitionSet} {P : TypeRef → Prop} :
    (∀ reference ∈ set.references, P reference.target) ↔
      ∀ {name definition}, set.types.get? name = some definition →
        ∀ leaf ∈ definition.leaves, P leaf := by
  simp only [mem_references_iff, TypeDefinition.mem_leaves_iff]
  constructor
  · intro h name definition hget leaf hleaf
    obtain ⟨field, hfield, hmem⟩ := hleaf
    exact h ⟨definition.name, field.name, leaf⟩
      ⟨name, definition, hget, field, hfield, leaf, hmem, rfl⟩
  · rintro h reference ⟨name, definition, hget, field, hfield, leaf, hmem, rfl⟩
    exact h hget leaf ⟨field, hfield, hmem⟩

theorem danglingReferences_eq_nil_iff {set : DefinitionSet} :
    set.danglingReferences = [] ↔ ∀ reference ∈ set.references,
      set.resolves reference.target = true := by
  unfold danglingReferences
  rw [List.filterMap_eq_nil_iff]
  refine forall₂_congr fun reference _ => ?_
  cases hr : set.resolves reference.target with
  | true => simp
  | false =>
    cases ht : reference.target <;> simp [ht, resolves, TypeRef.referencedName?] at hr ⊢

/-- A leaf that resolves names a definition of the set, if it names anything. -/
theorem containsName_of_referencedName? {set : DefinitionSet} {leaf : TypeRef}
    {target : String} (hresolved : set.resolves leaf = true)
    (hname : leaf.referencedName? = some target) : set.containsName target = true := by
  cases leaf with
  | scalar kind => cases hname
  | union members => cases hname
  | definition name =>
    cases hname
    exact containsName_iff.2 (Or.inl hresolved)
  | enumeration name =>
    cases hname
    exact containsName_iff.2 (Or.inr hresolved)

/-! ## Validity -/

/-- What the check of a set asks of it: keyed, well-formed definitions, and no reference to a name
that is not there. -/
structure Valid (set : DefinitionSet) : Prop extends set.Keyed where
  wellFormed : ∀ {name definition}, set.types.get? name = some definition → definition.WellFormed
  resolved : ∀ {name definition}, set.types.get? name = some definition →
    ∀ leaf ∈ definition.leaves, set.resolves leaf = true

theorem normalMembers_iff {members : List TypeRef} :
    normalMembers members = true ↔
      2 ≤ members.length ∧ ∀ member ∈ members, member.isUnion = false := by
  unfold normalMembers
  rw [Bool.and_eq_true, decide_eq_true_eq, Bool.not_eq_true', List.any_eq_false]
  simp only [Bool.not_eq_true]

theorem normal_iff_check {ref : TypeRef} :
    ref.Normal ↔ ¬((ref.isUnion && !normalMembers ref.members) = true) := by
  cases ref with
  | union members =>
    rw [Bool.and_eq_true, Bool.not_eq_true', Bool.eq_false_iff, not_and, not_not]
    show _ ↔ (true = true → normalMembers members = true)
    rw [normalMembers_iff]
    exact ⟨fun h _ => h, fun h => h rfl⟩
  | scalar kind => simp [TypeRef.Normal, TypeRef.isUnion]
  | enumeration name => simp [TypeRef.Normal, TypeRef.isUnion]
  | definition name => simp [TypeRef.Normal, TypeRef.isUnion]

theorem fieldsFault?_eq_none_iff {name : String} {seen : List String} {fields : List Field} :
    fieldsFault? name seen fields = none ↔
      ((fields.map (·.name)).Nodup ∧ ∀ field ∈ fields, field.type.Normal) ∧
        ∀ field ∈ fields, field.name ∉ seen := by
  induction fields generalizing seen with
  | nil => simp [fieldsFault?]
  | cons field rest ih =>
    simp only [fieldsFault?]
    by_cases hseen : field.name ∈ seen
    · simp [hseen]
    by_cases hnormal : field.type.Normal
    · rw [if_neg (by simpa using hseen), if_neg (normal_iff_check.1 hnormal), ih, List.map_cons,
        List.nodup_cons]
      simp only [List.forall_mem_cons]
      simp only [List.mem_cons, not_or, List.mem_map, not_exists, not_and]
      constructor
      · rintro ⟨⟨hnodup, hall⟩, hfree⟩
        exact ⟨⟨⟨fun f hf => (hfree f hf).1, hnodup⟩, hnormal, hall⟩, hseen,
          fun f hf => (hfree f hf).2⟩
      · rintro ⟨⟨⟨hnew, hnodup⟩, -, hall⟩, -, hfree⟩
        exact ⟨⟨hnodup, hall⟩, fun f hf => ⟨hnew f hf, hfree f hf⟩⟩
    · rw [if_neg (by simpa using hseen), if_pos (not_not.1 (mt normal_iff_check.2 hnormal))]
      simp [hnormal]

theorem typeFault?_eq_none_iff {key : String} {definition : TypeDefinition} :
    typeFault? key definition = none ↔ definition.name = key ∧ definition.WellFormed := by
  unfold typeFault?
  by_cases hkey : key = definition.name
  · rw [if_pos hkey, Option.map_eq_none_iff, fieldsFault?_eq_none_iff]
    constructor
    · rintro ⟨⟨hnodup, hall⟩, -⟩
      exact ⟨hkey.symm, hnodup, hall⟩
    · rintro ⟨-, hnodup, hall⟩
      exact ⟨⟨hnodup, hall⟩, fun _ _ => List.not_mem_nil⟩
  · rw [if_neg hkey]
    simp [Ne.symm hkey]

theorem enumFault?_eq_none_iff {set : DefinitionSet} {key : String} {definition : EnumDefinition} :
    set.enumFault? key definition = none ↔ definition.name = key ∧ key ∉ set.types := by
  unfold enumFault?
  by_cases hkey : key = definition.name
  · rw [if_neg (not_not.2 hkey)]
    have hmem : key ∈ set.types ↔ set.types.contains key = true := Iff.rfl
    cases hc : set.types.contains key <;> simp [hmem, hc, hkey.symm]
  · rw [if_pos hkey]
    simp [Ne.symm hkey]

theorem fault?_eq_none_iff {set : DefinitionSet} : set.fault? = none ↔ set.Valid := by
  simp only [fault?, Option.orElse_eq_orElse, Option.orElse_eq_or, Option.or_eq_none_iff,
    List.findSome?_eq_none_iff, List.head?_eq_none_iff, danglingReferences_eq_nil_iff,
    typeFault?_eq_none_iff, enumFault?_eq_none_iff, Prod.forall, ← NameMap.get?_eq_some_iff]
  rw [forall_references_iff (P := fun leaf => set.resolves leaf = true)]
  constructor
  · rintro ⟨htypes, henums, hresolved⟩
    exact {
      types := fun h => (htypes _ _ h).1
      enums := fun h => (henums _ _ h).1
      disjoint := fun ht he => by
        obtain ⟨found, hget⟩ := NameMap.mem_iff_get?.1 he
        exact (henums _ _ hget).2 ht
      wellFormed := fun h => (htypes _ _ h).2
      resolved := hresolved }
  · intro h
    exact ⟨fun name definition hget => ⟨h.types hget, h.wellFormed hget⟩,
      fun name definition hget =>
        ⟨h.enums hget, fun ht => h.disjoint ht (NameMap.mem_of_get? hget)⟩, h.resolved⟩

theorem validate_eq_ok_iff {set : DefinitionSet} : set.validate = .ok () ↔ set.Valid := by
  rw [← fault?_eq_none_iff]
  unfold validate
  split
  · rename_i fault hfault
    simp [hfault]
  · rename_i hnone
    simp [hnone]

end DefinitionSet

end SchemaLayout
