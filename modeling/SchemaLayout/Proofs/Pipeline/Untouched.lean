import SchemaLayout.Proofs.AtomicOperations.Replacing
import SchemaLayout.Proofs.Folding.Validity
import SchemaLayout.Proofs.Reserved.Outcome

/-!
# Fields that a pass does not touch

The passes that rewrite references replace leaves one by one (`Rewritten`), and put unions in normal
form as soon as they replace anything in the set (`Field.Substituted`). A union of an accepted set
may list a member twice, and the normal form drops the repeat (`TypeRef.mapLeaves_eq_self_iff`).

**Results.**
* `untouched_field_iff`: a field without a replaced leaf keeps its place, its name and its marks. It
  keeps its type exactly when the pass replaces nothing at all or no member of the type repeats.
* `untouched_field_numberTwice`: a union with a repeat changes when another definition is renamed.
-/
namespace SchemaLayout

/-! ## References and fields -/

theorem TypeRef.mapLeaves_eq_self_iff {f : TypeRef → Option TypeRef} {ref : TypeRef}
    (href : ref.Normal) (hnone : ∀ leaf ∈ ref.members, f leaf = none) :
    ref.mapLeaves f = ref ↔ ref.members.Nodup := by
  rw [mapLeaves_congr (g := fun _ => none) hnone,
    mapLeaves_eq_ofMembers (fun _ _ _ h => by cases h)]
  simp only [Option.getD_none, List.map_id']
  exact ofMembers_members_iff href

/-- What a pass that replaces leaves by `f` makes of a field. A replaced leaf may make the field
nullable. -/
structure Field.Substituted (f : TypeRef → Option TypeRef) (before after : Field) : Prop where
  name : after.name = before.name
  isList : after.isList = before.isList
  nullable : (∀ leaf ∈ before.type.members, f leaf = none) → after.nullable = before.nullable
  idle : (∀ leaf, f leaf = none) → after.type = before.type
  rewritten : ∀ leaf, f leaf ≠ none → after.type = before.type.mapLeaves f

namespace Field

/-- A field without a leaf to replace keeps its type where the pass is idle or no member repeats. -/
theorem Substituted.type_eq_iff {f : TypeRef → Option TypeRef} {before after : Field}
    (h : before.Substituted f after) (hnormal : before.type.Normal)
    (hnone : ∀ leaf ∈ before.type.members, f leaf = none) :
    after.type = before.type ↔ (∀ leaf, f leaf = none) ∨ before.type.members.Nodup := by
  by_cases hidle : ∀ leaf, f leaf = none
  · exact iff_of_true (h.idle hidle) (Or.inl hidle)
  · obtain ⟨leaf, hleaf⟩ := not_forall.1 hidle
    rw [h.rewritten leaf hleaf, TypeRef.mapLeaves_eq_self_iff hnormal hnone, or_iff_right hidle]

theorem substituted_renamed (table : RenameTable) (field : Field) :
    field.Substituted (TypeRef.replacement? table) (field.renamed table) where
  name := rfl
  isList := rfl
  nullable _ := rfl
  idle hidle := by
    have hempty : table.isEmpty = true :=
      RenameTable.isEmpty_iff.2 fun name => Option.map_eq_none_iff.1 (hidle (.definition name))
    exact if_pos hempty
  rewritten leaf hleaf :=
    if_neg fun hempty => hleaf (TypeRef.replacement?_eq_none_of_isEmpty hempty leaf)

end Field

/-! ## Passes -/

namespace DefinitionSet

open AtomicOperations

variable {set result : DefinitionSet}

/-- The set becomes the result by a pass that replaces leaves by the first function, and gives what
is left of the definitions the names of the second. -/
inductive Rewritten (set : DefinitionSet) :
    (TypeRef → Option TypeRef) → (String → String) → DefinitionSet → Prop where
  | renameReserved {rules : RenameRules} {table : RenameTable} {result : DefinitionSet}
      (htable : set.renameTable rules = .ok table)
      (hresult : set.renameReserved rules = .ok result) :
      Rewritten set (TypeRef.replacement? table) table.apply result
  | stripAtomicOperations :
      Rewritten set (fun leaf => (set.operationField? leaf).map (·.type)) id
        set.stripAtomicOperations
  | foldDuplicates {scope : FoldScope} {table : RenameTable} {result : DefinitionSet}
      (hresult : set.foldDuplicates scope = .ok (result, table)) :
      Rewritten set (TypeRef.replacement? table) id result
  | rewriteReferences (table : RenameTable) :
      Rewritten set (TypeRef.replacement? table) id (set.rewriteReferences table)

/-- The fields of a definition that is left are those that it had, with leaves replaced. -/
def Follows (f : TypeRef → Option TypeRef) (old new : TypeDefinition) : Prop :=
  ∃ rewrite : Field → Field, new.fields = old.fields.map rewrite ∧
    ∀ field : Field, field.Substituted f (rewrite field)

theorem follows_of_renamed {table : RenameTable} {old new : TypeDefinition}
    (h : new.fields = (old.renamed table).fields) : Follows (TypeRef.replacement? table) old new :=
  ⟨(·.renamed table), h, Field.substituted_renamed table⟩

theorem follows_renameReserved (hset : set.Keyed) {rules : RenameRules} {table : RenameTable}
    (htable : set.renameTable rules = .ok table) (hresult : set.renameReserved rules = .ok result)
    {name : String} {old new : TypeDefinition} (hold : set.types.get? name = some old)
    (hnew : result.types.get? (table.apply name) = some new) :
    Follows (TypeRef.replacement? table) old new := by
  rw [renameReserved_eq_applyRenames htable hset] at hresult
  obtain ⟨happ, rfl⟩ := applyRenames_eq_ok_iff.1 hresult
  obtain ⟨other, d, hother, hname, rfl⟩ := (get?_renamedTypes hset happ).1 hnew
  -- no other definition of the set gets the name
  cases happ.apply_inj (containsName_iff.2 (.inl (NameMap.mem_of_get? hother)))
    (containsName_iff.2 (.inl (NameMap.mem_of_get? hold))) hname
  cases hold.symm.trans hother
  exact follows_of_renamed rfl

theorem substituted_strippedField (hset : set.Keyed)
    (hsome : set.atomicOperations.isEmpty = false) (field : Field) :
    field.Substituted (fun leaf => (set.operationField? leaf).map (·.type))
      (set.strippedField field) where
  name := rfl
  isList := rfl
  nullable hnone := by
    have hkept : (field.type.members.any fun leaf =>
        (set.operationField? leaf).any (·.nullable)) = false := by
      refine List.any_eq_false.2 fun leaf hleaf => ?_
      rw [Option.map_eq_none_iff.1 (hnone leaf hleaf)]
      exact Bool.false_ne_true
    show (field.nullable || _) = field.nullable
    rw [hkept, Bool.or_false]
  idle hidle := by
    have hempty : set.atomicOperations.isEmpty = true := by
      refine NameMap.isEmpty_iff_forall.2 fun name => NameMap.get?_eq_none_iff.1 ?_
      rw [get?_atomicOperations hset]
      exact Option.map_eq_none_iff.1 (hidle (.definition name))
    rw [hsome] at hempty
    cases hempty
  rewritten _ _ := by
    refine (TypeRef.mapLeaves_eq_ofMembers (fun leaf type _ h => ?_) field.type).symm
    obtain ⟨found, hfound, rfl⟩ := Option.map_eq_some_iff.1 h
    obtain ⟨kind, hkind, -⟩ := numeric_of_operationField? hfound
    rw [hkind]
    rfl

theorem follows_stripAtomicOperations (hset : set.Valid) {name : String}
    {old new : TypeDefinition} (hold : set.types.get? name = some old)
    (hnew : set.stripAtomicOperations.types.get? name = some new) :
    Follows (fun leaf => (set.operationField? leaf).map (·.type)) old new := by
  cases hempty : set.atomicOperations.isEmpty with
  | true =>
    have hself : set.stripAtomicOperations = set := if_pos hempty
    rw [hself, hold] at hnew
    cases hnew
    have hnone : ∀ leaf, (set.operationField? leaf).map (·.type) = none := by
      intro leaf
      rw [← setField?_atomicOperations hset.toKeyed, NameMap.isEmpty_iff.1 hempty]
      cases leaf <;> rfl
    exact ⟨id, (List.map_id _).symm, fun field =>
      ⟨rfl, rfl, fun _ => rfl, fun _ => rfl, fun leaf hleaf => (hleaf (hnone leaf)).elim⟩⟩
  | false =>
    rw [get?_stripAtomicOperations hset hempty, hold] at hnew
    obtain ⟨kept, hkept, rfl⟩ := Option.map_eq_some_iff.1 hnew
    cases (Option.filter_eq_some_iff.1 hkept).1
    exact ⟨set.strippedField, rfl, substituted_strippedField hset.toKeyed hempty⟩

/-- Every pass keeps the fields of what is left of the definitions, with leaves replaced. -/
theorem Rewritten.follows (hset : set.Valid) {f : TypeRef → Option TypeRef}
    {newName : String → String} (h : set.Rewritten f newName result) {name : String}
    {old new : TypeDefinition} (hold : set.types.get? name = some old)
    (hnew : result.types.get? (newName name) = some new) : Follows f old new := by
  cases h with
  | renameReserved htable hresult =>
    exact follows_renameReserved hset.toKeyed htable hresult hold hnew
  | stripAtomicOperations => exact follows_stripAtomicOperations hset hold hnew
  | foldDuplicates hresult =>
    obtain ⟨table, -, hfolded⟩ := Fallible.map_eq_ok.1 hresult
    cases hfolded
    obtain ⟨-, kept, hkept, rfl⟩ := Folding.get?_foldBy.1 hnew
    cases hold.symm.trans hkept
    exact follows_of_renamed rfl
  | rewriteReferences table =>
    rw [id, get?_rewriteReferences, hold] at hnew
    cases hnew
    exact follows_of_renamed rfl

/-! ## Untouched fields -/

/-- **Untouched fields.** Take a definition of an accepted set that is left by a pass, and a field
of it without a leaf that the pass replaces. The field keeps its place, its name, its nullability
and its list mark. It keeps its type exactly when the pass replaces no leaf whatever, or no member
of the type is listed twice. -/
theorem untouched_field_iff (hset : set.validate = .ok ()) {f : TypeRef → Option TypeRef}
    {newName : String → String} (hpass : set.Rewritten f newName result) {name : String}
    {old new : TypeDefinition} (hold : set.types.get? name = some old)
    (hnew : result.types.get? (newName name) = some new) {i : Nat} {field : Field}
    (hfield : old.fields[i]? = some field)
    (huntouched : ∀ leaf ∈ field.type.members, f leaf = none) :
    ∃ kept, new.fields[i]? = some kept ∧ kept.name = field.name ∧
      kept.nullable = field.nullable ∧ kept.isList = field.isList ∧
      (kept.type = field.type ↔ (∀ leaf, f leaf = none) ∨ field.type.members.Nodup) := by
  have hvalid := validate_eq_ok_iff.1 hset
  obtain ⟨rewrite, hfields, hsubstituted⟩ := hpass.follows hvalid hold hnew
  have hnormal := (hvalid.wellFormed hold).normal field (List.mem_of_getElem? hfield)
  have hkept := hsubstituted field
  refine ⟨rewrite field, ?_, hkept.name, hkept.nullable huntouched, hkept.isList,
    hkept.type_eq_iff hnormal huntouched⟩
  rw [hfields, List.getElem?_map, hfield, Option.map_some]

def userWith (id : TypeRef) : TypeDefinition := ⟨"User", .model, [⟨"id", id, false, false⟩], none⟩

/-- A query under a name, and a user with an id of a type. -/
def queryAndUser (query : String) (id : TypeRef) : DefinitionSet :=
  ⟨.ofList [(query, ⟨query, .output, [], none⟩), ("User", userWith id)], ∅⟩

def queryTable : RenameTable := .ofList [("Query", "QueryType")]

def numberOrText : TypeRef := .union [.scalar .int, .scalar .string]

def numberTwice : TypeRef := .union [.scalar .int, .scalar .int]

theorem untouched_field_numberOrText :
    (queryAndUser "Query" numberOrText).validate = .ok () ∧
    (queryAndUser "Query" numberOrText).Rewritten (TypeRef.replacement? queryTable)
      queryTable.apply (queryAndUser "QueryType" numberOrText) ∧
    (∀ leaf ∈ numberOrText.members, leaf.replacement? queryTable = none) ∧
    ∃ new kept, (queryAndUser "QueryType" numberOrText).types.get? (queryTable.apply "User")
      = some new ∧ new.fields[0]? = some kept ∧ kept.type = numberOrText := by
  have hset : (queryAndUser "Query" numberOrText).validate = .ok () := by decide
  have htable : (queryAndUser "Query" numberOrText).renameTable .default = .ok queryTable := by
    decide
  have hpass : (queryAndUser "Query" numberOrText).Rewritten (TypeRef.replacement? queryTable)
      queryTable.apply (queryAndUser "QueryType" numberOrText) :=
    .renameReserved htable (by decide)
  have hold : (queryAndUser "Query" numberOrText).types.get? "User"
      = some (userWith numberOrText) := by decide
  have hnew : (queryAndUser "QueryType" numberOrText).types.get? (queryTable.apply "User")
      = some (userWith numberOrText) := by decide
  have huntouched : ∀ leaf ∈ numberOrText.members, leaf.replacement? queryTable = none := by decide
  have hfield : (userWith numberOrText).fields[0]? = some ⟨"id", numberOrText, false, false⟩ := rfl
  obtain ⟨kept, hkept, -, -, -, htype⟩ :=
    untouched_field_iff hset hpass hold hnew hfield huntouched
  exact ⟨hset, hpass, huntouched, _, kept, hnew, hkept, htype.2 (Or.inr (by decide))⟩

/-- The id loses its repeat when the query is renamed, though the renaming touches no leaf of it. -/
theorem untouched_field_numberTwice :
    (queryAndUser "Query" numberTwice).validate = .ok () ∧
    (queryAndUser "Query" numberTwice).Rewritten (TypeRef.replacement? queryTable)
      queryTable.apply (queryAndUser "QueryType" (.scalar .int)) ∧
    (queryAndUser "Query" numberTwice).types.get? "User" = some (userWith numberTwice) ∧
    (queryAndUser "QueryType" (.scalar .int)).types.get? (queryTable.apply "User")
      = some (userWith (.scalar .int)) ∧
    (∀ leaf ∈ numberTwice.members, leaf.replacement? queryTable = none) ∧
    (userWith numberTwice).fields[0]? = some ⟨"id", numberTwice, false, false⟩ ∧
    (userWith (.scalar .int)).fields[0]? ≠ some ⟨"id", numberTwice, false, false⟩ := by
  have htable : (queryAndUser "Query" numberTwice).renameTable .default = .ok queryTable := by
    decide
  exact ⟨by decide, .renameReserved htable (by decide), by decide, by decide, by decide, by decide,
    by decide⟩

end DefinitionSet

end SchemaLayout
