import SchemaLayout.Proofs.AtomicOperations.Pinning
import SchemaLayout.Proofs.Schema.Substitution

/-!
# Stripping keeps sets valid

Stripping replaces references to operations types by scalars and removes operations types that
nothing left refers to, so what is left resolves (`valid_stripAtomicOperations`).
-/
namespace SchemaLayout

/-! ## Operations types -/

theorem TypeDefinition.numeric_of_atomicSetField? {definition : TypeDefinition} {field : Field}
    (h : definition.atomicSetField? = some field) :
    ∃ kind, field.type = .scalar kind ∧ kind.isNumeric = true := by
  unfold atomicSetField? at h
  split at h
  · obtain ⟨-, hscalar⟩ := Option.filter_eq_some_iff.1 h
    rw [Bool.and_eq_true] at hscalar
    cases htype : field.type with
    | scalar kind => exact ⟨kind, rfl, by simpa [htype, TypeRef.scalarKind?] using hscalar.2⟩
    | enumeration name => simp [htype, TypeRef.scalarKind?] at hscalar
    | definition name => simp [htype, TypeRef.scalarKind?] at hscalar
    | union members => simp [htype, TypeRef.scalarKind?] at hscalar
  · cases h

theorem TypeDefinition.exists_scalar_of_atomicSetField? {definition : TypeDefinition}
    {field : Field} (h : definition.atomicSetField? = some field) :
    ∃ kind, field.type = .scalar kind := by
  obtain ⟨kind, hkind, -⟩ := definition.numeric_of_atomicSetField? h
  exact ⟨kind, hkind⟩

namespace DefinitionSet

theorem get?_atomicOperations {set : DefinitionSet} (hset : set.Keyed) (name : String) :
    set.atomicOperations.get? name = (set.types.get? name).bind (·.atomicSetField?) := by
  unfold atomicOperations
  refine NameMap.get?_ofList_of_mem_iff
    (f := fun name => (set.types.get? name).bind (·.atomicSetField?)) (fun name field => ?_) name
  simp only [List.mem_filterMap, NameMap.mem_values_iff, Option.map_eq_some_iff, Prod.mk.injEq,
    Option.bind_eq_some_iff]
  constructor
  · rintro ⟨definition, ⟨key, hget⟩, found, hfound, rfl, rfl⟩
    rw [hset.types hget]
    exact ⟨definition, hget, hfound⟩
  · rintro ⟨definition, hget, hfound⟩
    exact ⟨definition, ⟨name, hget⟩, field, hfound, hset.types hget, rfl⟩

theorem scalar_of_get?_atomicOperations {set : DefinitionSet} (hset : set.Keyed) {name : String}
    {field : Field} (h : set.atomicOperations.get? name = some field) :
    ∃ kind, field.type = .scalar kind := by
  rw [get?_atomicOperations hset] at h
  obtain ⟨definition, -, hfield⟩ := Option.bind_eq_some_iff.1 h
  exact definition.exists_scalar_of_atomicSetField? hfield

end DefinitionSet

namespace AtomicOperations

/-! ## Replacing operations -/

section Operations

variable {operations : NameMap Field}
  (hscalar : ∀ {name field}, operations.get? name = some field → ∃ kind, field.type = .scalar kind)
include hscalar

theorem scalar_of_setField? {leaf : TypeRef} {field : Field}
    (h : setField? operations leaf = some field) : ∃ kind, field.type = .scalar kind := by
  obtain ⟨name, -, hget⟩ := Option.bind_eq_some_iff.1 h
  exact hscalar hget

theorem keepsLeaves_setField? :
    TypeRef.KeepsLeaves fun leaf => (setField? operations leaf).map (·.type) := by
  intro leaf type _ h
  obtain ⟨field, hfield, rfl⟩ := Option.map_eq_some_iff.1 h
  obtain ⟨kind, hkind⟩ := scalar_of_setField? hscalar hfield
  rw [hkind]
  rfl

theorem wellFormed_stripField {definition : TypeDefinition} (h : definition.WellFormed) :
    (definition.mapFields (stripField operations)).WellFormed :=
  h.mapFields (fun _ => rfl) fun field hfield =>
    (h.normal field hfield).mapLeaves (keepsLeaves_setField? hscalar)

/-- A leaf of a stripped definition is a scalar, or a leaf that the definition had before. -/
theorem mem_leaves_stripField {definition : TypeDefinition} (h : definition.WellFormed)
    {leaf : TypeRef} (hleaf : leaf ∈ (definition.mapFields (stripField operations)).leaves) :
    (∃ kind, leaf = .scalar kind) ∨ leaf ∈ definition.leaves := by
  obtain ⟨field, hfield, hmem⟩ := TypeDefinition.mem_leaves_iff.1 hleaf
  obtain ⟨old, hold, rfl⟩ := List.mem_map.1 hfield
  obtain ⟨x, hx, rfl⟩ := (TypeRef.mem_members_mapLeaves (keepsLeaves_setField? hscalar)
    (h.normal old hold).flat).1 hmem
  cases hset : setField? operations x with
  | none => exact Or.inr (TypeDefinition.mem_leaves_iff.2 ⟨old, hold, hx⟩)
  | some found => exact Or.inl (scalar_of_setField? hscalar hset)

end Operations

end AtomicOperations

namespace DefinitionSet

open AtomicOperations

variable {set : DefinitionSet}

/-- What stripping keeps of a valid set: names, well-formed fields, and no new reference. -/
theorem strippedTypes_spec (hset : set.Valid) {name : String} {definition : TypeDefinition}
    (hget : set.strippedTypes.get? name = some definition) :
    definition.name = name ∧ definition.WellFormed ∧
      ∀ leaf ∈ definition.leaves, set.resolves leaf = true := by
  have hscalar : ∀ {name field}, set.atomicOperations.get? name = some field →
      ∃ kind, field.type = .scalar kind := scalar_of_get?_atomicOperations hset.toKeyed
  obtain ⟨old, hold, rfl⟩ := get?_strippedTypes.1 hget
  split
  · exact ⟨hset.types hold, hset.wellFormed hold, hset.resolved hold⟩
  · have hname : old.name = name := hset.types hold
    refine ⟨hname, wellFormed_stripField hscalar (hset.wellFormed hold), ?_⟩
    intro leaf hleaf
    rcases mem_leaves_stripField hscalar (hset.wellFormed hold) hleaf with ⟨kind, rfl⟩ | hmem
    · rfl
    · exact hset.resolved hold leaf hmem

/-- Stripping gives a valid set for a valid one. -/
theorem valid_stripAtomicOperations (hset : set.Valid) : set.stripAtomicOperations.Valid := by
  cases hempty : set.atomicOperations.isEmpty with
  | true => rwa [show set.stripAtomicOperations = set from if_pos hempty]
  | false =>
    have hstripped : ∀ {name definition},
        set.stripAtomicOperations.types.get? name = some definition →
          set.strippedTypes.get? name = some definition := by
      intro name definition hget
      have hleft := (get?_stripAtomicOperations_eq_some_iff.1 hget).2
      rwa [hempty, if_neg Bool.false_ne_true] at hleft
    refine { toKeyed := hset.toKeyed.stripAtomicOperations, wellFormed := ?_, resolved := ?_ }
    · intro name definition hget
      exact (strippedTypes_spec hset (hstripped hget)).2.1
    · intro name definition hget leaf hleaf
      have hresolved := (strippedTypes_spec hset (hstripped hget)).2.2 leaf hleaf
      cases leaf with
      | scalar kind => rfl
      | union members => rfl
      | enumeration target =>
        show target ∈ set.stripAtomicOperations.enums
        rw [enums_stripAtomicOperations]
        exact hresolved
      | definition target =>
        refine mem_stripAtomicOperations_iff.2 ⟨hresolved, fun hremoved => ?_⟩
        have hfree := hset.toKeyed.any_refersTo_eq_false hget hremoved
        rw [TypeDefinition.any_refersTo_iff.2 hleaf] at hfree
        cases hfree

end DefinitionSet

end SchemaLayout
