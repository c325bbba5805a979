import SchemaLayout.Proofs.AtomicOperations.Stripping

/-!
# What stripping gives

Where unions are in normal form, every reference to an operations type is a leaf, and leaves are
what is replaced. So no stripped definition refers to an operations type
(`not_mem_leaves_stripField`), none of them is pinned, and all of them go at once
(`removableFrom_eq_self`).

**Result.** `stripAtomicOperations_types`: stripping a valid set with operations types leaves
exactly the other definitions, each with the numbers in the place of the operations.
-/
namespace SchemaLayout

namespace AtomicOperations

variable {types : NameMap TypeDefinition}

/-- Where nothing is pinned, everything can go. -/
theorem removableFrom_eq_self {removable : List String}
    (h : ∀ name ∈ removable, isPinned types removable name = false) :
    removableFrom types removable = removable := by
  have hall : unpinned types removable = removable := by
    refine List.filter_eq_self.2 fun name hname => ?_
    rw [h name hname]
    rfl
  rw [removableFrom, hall, if_neg (Nat.lt_irrefl _)]

theorem not_mem_leaves_stripField {operations : NameMap Field}
    (hscalar : ∀ {name field}, operations.get? name = some field →
      ∃ kind, field.type = .scalar kind)
    {definition : TypeDefinition} (h : definition.WellFormed) {name : String}
    (hname : name ∈ operations) :
    .definition name ∉ (definition.mapFields (stripField operations)).leaves := by
  intro hleaf
  obtain ⟨field, hfield, hmem⟩ := TypeDefinition.mem_leaves_iff.1 hleaf
  obtain ⟨old, hold, rfl⟩ := List.mem_map.1 hfield
  obtain ⟨leaf, -, hreplaced⟩ := (TypeRef.mem_members_mapLeaves (keepsLeaves_setField? hscalar)
    (h.normal old hold).flat).1 hmem
  cases hset : setField? operations leaf with
  | some found =>
    obtain ⟨kind, hkind⟩ := scalar_of_setField? hscalar hset
    rw [hset] at hreplaced
    exact TypeRef.noConfusion (hkind.symm.trans hreplaced)
  | none =>
    -- a leaf that stays names no operations type
    rw [hset] at hreplaced
    obtain rfl : leaf = .definition name := hreplaced
    exact NameMap.get?_eq_none_iff.1 hset hname

end AtomicOperations

namespace DefinitionSet

open AtomicOperations

variable {set : DefinitionSet}

/-! ## The fields without operations -/

/-- The `set` field of the operations type that a leaf names, if it names one. -/
def operationField? (set : DefinitionSet) : TypeRef → Option Field
  | .definition name => (set.types.get? name).bind (·.atomicSetField?)
  | _ => none

/-- The number in the place of an operations type; any other leaf stays. -/
def withoutOperations (set : DefinitionSet) (leaf : TypeRef) : TypeRef :=
  ((set.operationField? leaf).map (·.type)).getD leaf

/-- A field with the numbers in the place of operations. -/
def strippedField (set : DefinitionSet) (field : Field) : Field where
  name := field.name
  type := .ofMembers (field.type.members.map set.withoutOperations)
  nullable := field.nullable
    || field.type.members.any fun leaf => (set.operationField? leaf).any (·.nullable)
  isList := field.isList

theorem setField?_atomicOperations (hset : set.Keyed) (leaf : TypeRef) :
    setField? set.atomicOperations leaf = set.operationField? leaf := by
  cases leaf with
  | definition name => exact get?_atomicOperations hset name
  | scalar kind => rfl
  | enumeration name => rfl
  | union members => rfl

theorem stripField_eq (hset : set.Keyed) (field : Field) :
    stripField set.atomicOperations field = set.strippedField field := by
  have htype : field.type.mapLeaves (fun leaf =>
        (setField? set.atomicOperations leaf).map (·.type))
      = .ofMembers (field.type.members.map set.withoutOperations) := by
    rw [TypeRef.mapLeaves_eq_ofMembers
      (keepsLeaves_setField? (scalar_of_get?_atomicOperations hset))]
    simp only [setField?_atomicOperations hset]
    rfl
  unfold stripField strippedField
  rw [htype]
  simp only [setField?_atomicOperations hset]

theorem numeric_of_operationField? {leaf : TypeRef} {field : Field}
    (h : set.operationField? leaf = some field) :
    ∃ kind, field.type = .scalar kind ∧ kind.isNumeric = true := by
  cases leaf with
  | definition name =>
    obtain ⟨definition, -, hfield⟩ := Option.bind_eq_some_iff.1 h
    exact definition.numeric_of_atomicSetField? hfield
  | scalar kind => cases h
  | enumeration name => cases h
  | union members => cases h

/-- The members of a stripped type are the replaced leaves, each once; one that is left alone makes
no union. -/
theorem members_strippedField (hset : set.Keyed) {field : Field} (h : field.type.Normal) :
    (set.strippedField field).type.members
        = (field.type.members.map set.withoutOperations).eraseDups ∧
      ((set.strippedField field).type.isUnion = true ↔
        2 ≤ (field.type.members.map set.withoutOperations).eraseDups.length) := by
  have hf := keepsLeaves_setField? (scalar_of_get?_atomicOperations hset)
  have hmembers : (set.strippedField field).type.members
      = (field.type.members.map set.withoutOperations).eraseDups := by
    rw [← stripField_eq hset]
    refine (TypeRef.members_mapLeaves hf h.flat).trans ?_
    simp only [setField?_atomicOperations hset]
    rfl
  have hnormal : (set.strippedField field).type.Normal := by
    rw [← stripField_eq hset]
    exact h.mapLeaves hf
  rw [hnormal.isUnion_iff, hmembers]
  exact ⟨rfl, Iff.rfl⟩

/-! ## The definitions that are left -/

theorem removableFrom_atomicOperations (hset : set.Valid) :
    removableFrom set.strippedTypes set.atomicOperations.keys = set.atomicOperations.keys := by
  refine removableFrom_eq_self fun name hname => isPinned_eq_false_iff.2 ?_
  intro key definition hget hkept
  have hnamed : definition.name = key := (strippedTypes_spec hset hget).1
  obtain ⟨old, hold, rfl⟩ := get?_strippedTypes.1 hget
  rw [hnamed, NameMap.mem_keys_iff] at hkept
  have hother : ¬set.atomicOperations.contains key = true := hkept
  rw [if_neg hother, ← Bool.not_eq_true, TypeDefinition.any_refersTo_iff]
  exact not_mem_leaves_stripField (scalar_of_get?_atomicOperations hset.toKeyed)
    (hset.wellFormed hold) (NameMap.mem_keys_iff.1 hname)

theorem get?_stripAtomicOperations (hset : set.Valid)
    (hsome : set.atomicOperations.isEmpty = false) (name : String) :
    set.stripAtomicOperations.types.get? name =
      ((set.types.get? name).filter (·.atomicSetField?.isNone)).map
        (·.mapFields set.strippedField) := by
  have hfields : ∀ definition : TypeDefinition,
      definition.mapFields (stripField set.atomicOperations)
        = definition.mapFields set.strippedField := by
    intro definition
    rw [funext (stripField_eq hset.toKeyed)]
  unfold stripAtomicOperations
  rw [hsome, if_neg Bool.false_ne_true]
  dsimp only
  rw [removableFrom_atomicOperations hset, NameMap.get?_filter, strippedTypes,
    NameMap.get?_mapValues]
  cases hget : set.types.get? name with
  | none => rfl
  | some definition =>
    have hoperation :
        set.atomicOperations.keys.contains name = definition.atomicSetField?.isSome := by
      rw [Bool.eq_iff_iff, List.contains_iff_mem, NameMap.mem_keys_iff, NameMap.mem_iff_get?,
        get?_atomicOperations hset.toKeyed, hget, Option.isSome_iff_exists]
      rfl
    rw [Option.map_some, Option.filter_some, Option.filter_some, hoperation]
    cases hfield : definition.atomicSetField? with
    | some field => rfl
    | none =>
      have hother : ¬set.atomicOperations.contains name = true := by
        have hmem : name ∉ set.atomicOperations := by
          rw [← NameMap.get?_eq_none_iff, get?_atomicOperations hset.toKeyed, hget]
          exact hfield
        exact hmem
      rw [if_neg hother, hfields]
      rfl

/-! ## Stripping as a whole -/

/-- **Stripping.** For a set that is accepted and has operations types, stripping gives an accepted
set with the same enums and, under their names, the types that are no operations types. Each field
keeps its name, its place and its list mark. Every leaf that names an operations type becomes the
number that its `set` field holds, repeats are dropped and a single member stands for itself. The
field is nullable if it was, or if the `set` field of a replaced leaf is. -/
theorem stripAtomicOperations_types (hset : set.validate = .ok ())
    (hsome : ∃ name definition, set.types.get? name = some definition ∧
      definition.atomicSetField?.isSome = true) :
    set.stripAtomicOperations.validate = .ok () ∧
    set.stripAtomicOperations.enums = set.enums ∧
    (∀ name, set.stripAtomicOperations.types.get? name =
      ((set.types.get? name).filter (·.atomicSetField?.isNone)).map
        (·.mapFields set.strippedField)) ∧
    (∀ leaf field, set.operationField? leaf = some field →
      ∃ kind, field.type = .scalar kind ∧ kind.isNumeric = true) ∧
    ∀ name definition, set.types.get? name = some definition → ∀ field ∈ definition.fields,
      (set.strippedField field).type.members
          = (field.type.members.map set.withoutOperations).eraseDups ∧
        ((set.strippedField field).type.isUnion = true ↔
          2 ≤ (field.type.members.map set.withoutOperations).eraseDups.length) := by
  have hvalid := validate_eq_ok_iff.1 hset
  obtain ⟨name, definition, hget, hoperation⟩ := hsome
  obtain ⟨field, hfield⟩ := Option.isSome_iff_exists.1 hoperation
  have hmem : name ∈ set.atomicOperations :=
    NameMap.mem_iff_get?.2 ⟨field, by rw [get?_atomicOperations hvalid.toKeyed, hget]; exact hfield⟩
  have hnonempty : set.atomicOperations.isEmpty = false :=
    Bool.eq_false_iff.2 fun hempty => NameMap.isEmpty_iff_forall.1 hempty name hmem
  refine ⟨validate_eq_ok_iff.2 (valid_stripAtomicOperations hvalid), enums_stripAtomicOperations,
    get?_stripAtomicOperations hvalid hnonempty, fun _ _ => numeric_of_operationField?, ?_⟩
  intro name definition hget field hfield
  exact members_strippedField hvalid.toKeyed ((hvalid.wellFormed hget).normal field hfield)

/-- Operations on whole numbers whose parts take operations on rates, and a post with one field for
both and one for the first. -/
def nestedOperations : DefinitionSet :=
  ⟨.ofList [
    ("CountOperations", ⟨"CountOperations", .input, [⟨"set", .scalar .int, true, false⟩,
      ⟨"increment", .definition "RateOperations", false, false⟩], none⟩),
    ("Post", ⟨"Post", .model, [
      ⟨"views", .union [.scalar .int, .definition "CountOperations", .definition "RateOperations"],
        false, false⟩,
      ⟨"likes", .union [.definition "CountOperations", .scalar .int], false, true⟩], none⟩),
    ("RateOperations", ⟨"RateOperations", .input, [⟨"set", .scalar .float, false, false⟩,
      ⟨"divide", .scalar .float, false, false⟩], none⟩)], ∅⟩

theorem stripAtomicOperations_types_nestedOperations :
    nestedOperations.validate = .ok () ∧
      nestedOperations.stripAtomicOperations.validate = .ok () ∧
      nestedOperations.stripAtomicOperations.types.get? "CountOperations" = none ∧
      nestedOperations.stripAtomicOperations.types.get? "Post" = some ⟨"Post", .model, [
        ⟨"views", .union [.scalar .int, .scalar .float], true, false⟩,
        ⟨"likes", .scalar .int, true, true⟩], none⟩ := by
  have hset : nestedOperations.validate = .ok () := by decide
  obtain ⟨hvalid, -, htypes, -⟩ := stripAtomicOperations_types hset
    ⟨"RateOperations", ⟨"RateOperations", .input, [⟨"set", .scalar .float, false, false⟩,
      ⟨"divide", .scalar .float, false, false⟩], none⟩, by decide, by decide⟩
  refine ⟨hset, hvalid, ?_, ?_⟩
  · rw [htypes]
    decide
  · rw [htypes]
    decide

end DefinitionSet

end SchemaLayout
