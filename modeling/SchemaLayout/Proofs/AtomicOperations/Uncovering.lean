import SchemaLayout.Proofs.AtomicOperations.Replacing

/-!
# Operations types that stripping uncovers

Stripping finds the operations types before it rewrites any field. A definition whose `set` field
takes an operations type is none of them, but it has a number there afterwards, and may then be one
itself (`Uncovers`). So the operations types of the result are exactly those that were uncovered
(`isSome_atomicSetField?_stripped_iff`), and a second run would strip them
(`stripAtomicOperations_eq_self_iff`).

**Result.** `stripAtomicOperations_twice_iff`: the operations types of the set are gone; the result
has no operations type, and a second run changes nothing, exactly when none is uncovered.
-/
namespace SchemaLayout

namespace TypeRef

theorem ofMembers_eq_iff {l : List TypeRef} (hne : l ≠ []) (hl : ∀ y ∈ l, y.isUnion = false)
    {x : TypeRef} (hx : x.isUnion = false) : ofMembers l = x ↔ ∀ y ∈ l, y = x := by
  constructor
  · intro heq y hy
    have hmem : y ∈ (ofMembers l).members := by
      rw [members_ofMembers hl]
      exact List.mem_eraseDups.2 hy
    rw [heq, members_of_not_union hx] at hmem
    exact List.mem_singleton.1 hmem
  · intro hall
    obtain ⟨y, rest, rfl⟩ := List.exists_cons_of_ne_nil hne
    obtain rfl : y = x := hall y List.mem_cons_self
    have hrest : rest.filter (fun z => !(z == y)) = [] := by
      simpa [List.filter_eq_nil_iff] using fun z hz => hall z (List.mem_cons_of_mem _ hz)
    have honce : (y :: rest).eraseDups = [y].eraseDups := by
      simp [List.eraseDups_cons, hrest]
    rw [ofMembers_congr hl (by simpa using hx) honce, ofMembers_singleton hx]

theorem members_ne_nil {ref : TypeRef} (h : ref.Normal) : ref.members ≠ [] := by
  cases ref with
  | union members =>
    intro hnil
    have hlen := h.1
    rw [show members = [] from hnil] at hlen
    simp at hlen
  | scalar kind => simp [members]
  | enumeration name => simp [members]
  | definition name => simp [members]

end TypeRef

namespace TypeDefinition

variable {definition : TypeDefinition}

/-- An input with fields of operations only, some of them arithmetic. -/
structure OffersOperations (definition : TypeDefinition) : Prop where
  input : definition.kind = .input
  only : ∀ field ∈ definition.fields, field.name = "set" ∨ field.name ∈ arithmeticFields
  arithmetic : ∃ field ∈ definition.fields, field.name ∈ arithmeticFields

/-- An operations type offers operations, and its `set` field holds one number. -/
theorem isSome_atomicSetField?_iff : definition.atomicSetField?.isSome = true ↔
    definition.OffersOperations ∧ ∃ field kind, definition.field? "set" = some field ∧
      field.isList = false ∧ kind.isNumeric = true ∧ field.type = .scalar kind := by
  have hnumber : ∀ field : Field,
      (!field.isList && field.type.scalarKind?.any (·.isNumeric)) = true ↔
        field.isList = false ∧ ∃ kind, kind.isNumeric = true ∧ field.type = .scalar kind := by
    intro field
    cases field.type <;> simp [TypeRef.scalarKind?]
  have hoffers : (definition.kind = .input
      && definition.fields.all (fun f => f.name == "set" || arithmeticFields.contains f.name)
      && definition.fields.any (fun f => arithmeticFields.contains f.name)) = true ↔
        definition.OffersOperations := by
    simp only [Bool.and_eq_true, decide_eq_true_eq, List.all_eq_true, List.any_eq_true,
      Bool.or_eq_true, beq_iff_eq, List.contains_iff_mem]
    exact ⟨fun h => ⟨h.1.1, h.1.2, h.2⟩, fun h => ⟨⟨h.input, h.only⟩, h.arithmetic⟩⟩
  unfold atomicSetField?
  split
  · rename_i h
    simp only [Option.isSome_iff_exists, Option.filter_eq_some_iff, hnumber, hoffers.1 h, true_and]
    constructor
    · rintro ⟨field, hfield, hlist, kind, hnumeric, htype⟩
      exact ⟨field, kind, hfield, hlist, hnumeric, htype⟩
    · rintro ⟨field, kind, hfield, hlist, hnumeric, htype⟩
      exact ⟨field, hfield, hlist, kind, hnumeric, htype⟩
  · rename_i h
    exact iff_of_false Bool.false_ne_true fun hop => h (hoffers.2 hop.1)

theorem offersOperations_mapFields {f : Field → Field}
    (hname : ∀ field, (f field).name = field.name) :
    (definition.mapFields f).OffersOperations ↔ definition.OffersOperations := by
  constructor
  · rintro ⟨hinput, honly, field, hfield, harith⟩
    obtain ⟨old, hold, rfl⟩ := List.mem_map.1 hfield
    rw [hname] at harith
    refine ⟨hinput, fun field hfield => ?_, old, hold, harith⟩
    simpa only [hname] using honly (f field) (List.mem_map_of_mem hfield)
  · rintro ⟨hinput, honly, field, hfield, harith⟩
    refine ⟨hinput, fun new hnew => ?_, f field, List.mem_map_of_mem hfield, by rwa [hname]⟩
    obtain ⟨old, hold, rfl⟩ := List.mem_map.1 hnew
    simpa only [hname] using honly old hold

theorem field?_mapFields {f : Field → Field} (hname : ∀ field, (f field).name = field.name)
    (name : String) : (definition.mapFields f).field? name = (definition.field? name).map f := by
  unfold field? mapFields
  rw [List.find?_map]
  simp only [Function.comp_def, hname]

end TypeDefinition

namespace DefinitionSet

open AtomicOperations

variable {set : DefinitionSet}

/-- Stripping the set makes an operations type of the definition: its `set` field takes one number
once those of operations types are in their place. -/
structure Uncovers (set : DefinitionSet) (definition : TypeDefinition) : Prop where
  /-- Without operations types in the set, nothing is rewritten. -/
  operations : ∃ name operations, set.types.get? name = some operations ∧
    operations.atomicSetField?.isSome = true
  other : definition.atomicSetField? = none
  offers : definition.OffersOperations
  number : ∃ field kind, definition.field? "set" = some field ∧ field.isList = false ∧
    kind.isNumeric = true ∧ ∀ leaf ∈ field.type.members, set.withoutOperations leaf = .scalar kind

/-! ## The operations types of the result -/

theorem isEmpty_atomicOperations_iff (hset : set.Keyed) : set.atomicOperations.isEmpty = true ↔
    ∀ name definition, set.types.get? name = some definition →
      definition.atomicSetField? = none := by
  rw [NameMap.isEmpty_iff_forall]
  simp only [← NameMap.get?_eq_none_iff, get?_atomicOperations hset, Option.bind_eq_none_iff]

theorem isEmpty_atomicOperations_eq_false (hset : set.Keyed) {name : String}
    {definition : TypeDefinition} (hget : set.types.get? name = some definition)
    (hsome : definition.atomicSetField?.isSome = true) : set.atomicOperations.isEmpty = false := by
  refine Bool.eq_false_iff.2 fun hempty => ?_
  rw [(isEmpty_atomicOperations_iff hset).1 hempty name definition hget] at hsome
  cases hsome

/-- A stripped type is a scalar where every leaf is replaced by it. -/
theorem type_strippedField_eq_iff (hset : set.Keyed) {field : Field} (h : field.type.Normal)
    {kind : ScalarKind} : (set.strippedField field).type = .scalar kind ↔
      ∀ leaf ∈ field.type.members, set.withoutOperations leaf = .scalar kind := by
  have hleaf : ∀ x ∈ field.type.members.map set.withoutOperations, x.isUnion = false := by
    rw [List.forall_mem_map]
    intro leaf hmem
    have hf := keepsLeaves_setField? (scalar_of_get?_atomicOperations hset)
    have hunion := TypeRef.isUnion_getD hf (TypeRef.isUnion_of_mem_members h hmem)
    rwa [setField?_atomicOperations hset] at hunion
  show TypeRef.ofMembers (field.type.members.map set.withoutOperations) = _ ↔ _
  rw [TypeRef.ofMembers_eq_iff (by simpa using TypeRef.members_ne_nil h) hleaf rfl,
    List.forall_mem_map]

theorem isSome_atomicSetField?_stripped_iff (hset : set.Keyed) {definition : TypeDefinition}
    (h : definition.WellFormed) :
    (definition.mapFields set.strippedField).atomicSetField?.isSome = true ↔
      definition.OffersOperations ∧ ∃ field kind, definition.field? "set" = some field ∧
        field.isList = false ∧ kind.isNumeric = true ∧
          ∀ leaf ∈ field.type.members, set.withoutOperations leaf = .scalar kind := by
  have hname : ∀ field, (set.strippedField field).name = field.name := fun _ => rfl
  rw [TypeDefinition.isSome_atomicSetField?_iff, TypeDefinition.offersOperations_mapFields hname]
  simp only [TypeDefinition.field?_mapFields hname, Option.map_eq_some_iff]
  refine and_congr_right fun _ => ⟨?_, ?_⟩
  · rintro ⟨_, kind, ⟨field, hfield, rfl⟩, hlist, hnumeric, htype⟩
    have hnormal := h.normal field (List.mem_of_find?_eq_some hfield)
    exact ⟨field, kind, hfield, hlist, hnumeric, (type_strippedField_eq_iff hset hnormal).1 htype⟩
  · rintro ⟨field, kind, hfield, hlist, hnumeric, hleaves⟩
    have hnormal := h.normal field (List.mem_of_find?_eq_some hfield)
    exact ⟨_, kind, ⟨field, hfield, rfl⟩, hlist, hnumeric,
      (type_strippedField_eq_iff hset hnormal).2 hleaves⟩

/-- The operations types of the result are those that stripping uncovers. -/
theorem isSome_atomicSetField?_iff_uncovers (hset : set.Valid) {name : String}
    {definition : TypeDefinition}
    (hget : set.stripAtomicOperations.types.get? name = some definition) :
    definition.atomicSetField?.isSome = true ↔
      ∃ old, set.types.get? name = some old ∧ set.Uncovers old := by
  cases hempty : set.atomicOperations.isEmpty with
  | true =>
    have hnone := (isEmpty_atomicOperations_iff hset.toKeyed).1 hempty
    have hself : set.stripAtomicOperations = set := if_pos hempty
    rw [hself] at hget
    rw [hnone name definition hget]
    refine iff_of_false Bool.false_ne_true ?_
    rintro ⟨-, -, ⟨other, operations, hother, hsome⟩, -⟩
    rw [hnone other operations hother] at hsome
    cases hsome
  | false =>
    rw [get?_stripAtomicOperations hset hempty, Option.map_eq_some_iff] at hget
    obtain ⟨old, hfilter, rfl⟩ := hget
    obtain ⟨hold, hother⟩ := Option.filter_eq_some_iff.1 hfilter
    rw [isSome_atomicSetField?_stripped_iff hset.toKeyed (hset.wellFormed hold)]
    constructor
    · rintro ⟨hoffers, hnumber⟩
      refine ⟨old, hold, ⟨?_, Option.isNone_iff_eq_none.1 hother, hoffers, hnumber⟩⟩
      have hsome := mt (isEmpty_atomicOperations_iff hset.toKeyed).2 (by simp [hempty])
      simpa [← Option.isSome_iff_ne_none] using hsome
    · rintro ⟨same, hsame, huncovers⟩
      cases hold.symm.trans hsame
      exact ⟨huncovers.offers, huncovers.number⟩

theorem Uncovers.get?_stripAtomicOperations (hset : set.Valid) {name : String}
    {definition : TypeDefinition} (h : set.Uncovers definition)
    (hget : set.types.get? name = some definition) :
    set.stripAtomicOperations.types.get? name = some (definition.mapFields set.strippedField) := by
  obtain ⟨other, operations, hother, hsome⟩ := h.operations
  have hempty := isEmpty_atomicOperations_eq_false hset.toKeyed hother hsome
  rw [DefinitionSet.get?_stripAtomicOperations hset hempty, hget]
  simp [Option.filter, h.other]

theorem forall_atomicSetField?_eq_none_iff (hset : set.Valid) :
    (∀ name definition, set.stripAtomicOperations.types.get? name = some definition →
      definition.atomicSetField? = none) ↔
        ∀ name old, set.types.get? name = some old → ¬set.Uncovers old := by
  constructor
  · intro hnone name old hold huncovers
    have hget := huncovers.get?_stripAtomicOperations hset hold
    have hsome := (isSome_atomicSetField?_iff_uncovers hset hget).2 ⟨old, hold, huncovers⟩
    rw [hnone name _ hget] at hsome
    cases hsome
  · intro hcovered name definition hget
    refine Option.not_isSome_iff_eq_none.1 fun hsome => ?_
    obtain ⟨old, hold, huncovers⟩ := (isSome_atomicSetField?_iff_uncovers hset hget).1 hsome
    exact hcovered name old hold huncovers

/-! ## A second run -/

theorem not_mem_stripAtomicOperations (hset : set.Valid) {name : String}
    {definition : TypeDefinition} (hget : set.types.get? name = some definition)
    (hsome : definition.atomicSetField?.isSome = true) :
    name ∉ set.stripAtomicOperations.types := by
  have hempty := isEmpty_atomicOperations_eq_false hset.toKeyed hget hsome
  rw [← NameMap.get?_eq_none_iff, get?_stripAtomicOperations hset hempty, hget]
  obtain ⟨field, hfield⟩ := Option.isSome_iff_exists.1 hsome
  simp [Option.filter, hfield]

theorem stripAtomicOperations_eq_self_iff (hset : set.Valid) : set.stripAtomicOperations = set ↔
    ∀ name definition, set.types.get? name = some definition →
      definition.atomicSetField? = none := by
  constructor
  · intro hself name definition hget
    refine Option.not_isSome_iff_eq_none.1 fun hsome => ?_
    have hgone := not_mem_stripAtomicOperations hset hget hsome
    rw [hself] at hgone
    exact hgone (NameMap.mem_of_get? hget)
  · intro hnone
    exact if_pos ((isEmpty_atomicOperations_iff hset.toKeyed).2 hnone)

/-- **Stripping twice.** The operations types of a set that is accepted do not survive stripping. A
definition of the result is an operations type exactly when stripping uncovers it: where the set has
operations types, an input that is none of them but has fields of operations only, some of them
arithmetic, and whose `set` field takes one number once numbers are in the place of operations. So
the result has no operations types, and a second run changes nothing, exactly when the set has no
such definition. -/
theorem stripAtomicOperations_twice_iff (hset : set.validate = .ok ()) :
    (∀ name definition, set.types.get? name = some definition →
      definition.atomicSetField?.isSome = true → name ∉ set.stripAtomicOperations.types) ∧
    (∀ name definition, set.stripAtomicOperations.types.get? name = some definition →
      (definition.atomicSetField?.isSome = true ↔
        ∃ old, set.types.get? name = some old ∧ set.Uncovers old)) ∧
    ((∀ name definition, set.stripAtomicOperations.types.get? name = some definition →
      definition.atomicSetField? = none) ↔
        ∀ name old, set.types.get? name = some old → ¬set.Uncovers old) ∧
    (set.stripAtomicOperations.stripAtomicOperations = set.stripAtomicOperations ↔
      ∀ name old, set.types.get? name = some old → ¬set.Uncovers old) := by
  have hvalid := validate_eq_ok_iff.1 hset
  refine ⟨fun _ _ => not_mem_stripAtomicOperations hvalid,
    fun _ _ => isSome_atomicSetField?_iff_uncovers hvalid,
    forall_atomicSetField?_eq_none_iff hvalid, ?_⟩
  rw [stripAtomicOperations_eq_self_iff (valid_stripAtomicOperations hvalid),
    forall_atomicSetField?_eq_none_iff hvalid]

theorem stripAtomicOperations_twice_nestedOperations : nestedOperations.validate = .ok () ∧
    nestedOperations.stripAtomicOperations.stripAtomicOperations
      = nestedOperations.stripAtomicOperations := by
  have hset : nestedOperations.validate = .ok () := by decide
  refine ⟨hset, (stripAtomicOperations_twice_iff hset).2.2.2.2 fun name old hold huncovers => ?_⟩
  -- the post is no input, and the others are operations types
  have hall : ∀ definition ∈ nestedOperations.types.values,
      definition.kind = .input → definition.atomicSetField? ≠ none := by decide
  exact hall old (NameMap.mem_values_iff.2 ⟨name, hold⟩) huncovers.offers.input huncovers.other

/-- Operations on whole numbers, and an input whose `set` field takes them. -/
def wrappedOperations : DefinitionSet :=
  ⟨.ofList [
    ("CountOperations", ⟨"CountOperations", .input, [⟨"set", .scalar .int, false, false⟩,
      ⟨"increment", .scalar .int, false, false⟩], none⟩),
    ("PostUpdateInput", ⟨"PostUpdateInput", .input, [
      ⟨"set", .definition "CountOperations", false, false⟩,
      ⟨"increment", .scalar .int, false, false⟩], none⟩)], ∅⟩

/-- Stripping leaves an operations type behind, which a second run strips. -/
theorem stripAtomicOperations_wrappedOperations : wrappedOperations.validate = .ok () ∧
    (∃ name definition, wrappedOperations.stripAtomicOperations.types.get? name = some definition ∧
      definition.atomicSetField?.isSome = true) ∧
    wrappedOperations.stripAtomicOperations.stripAtomicOperations
      ≠ wrappedOperations.stripAtomicOperations := by
  refine ⟨by decide, ⟨"PostUpdateInput", ⟨"PostUpdateInput", .input, [
    ⟨"set", .scalar .int, false, false⟩, ⟨"increment", .scalar .int, false, false⟩], none⟩, ?_⟩, ?_⟩
  · decide +kernel
  · decide +kernel

end DefinitionSet

end SchemaLayout
