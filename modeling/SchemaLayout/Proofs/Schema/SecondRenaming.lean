import SchemaLayout.Proofs.Schema.Renaming

/-!
# A second renaming

What a table renames is gone behind the renaming (`not_containsName_applyRenames`), and what it
brings in was not there before (`Applicable.free`). So the same table finds nothing more to rename,
and the reversed table (`RenameTable.reverse`) takes every name back to the one that it came from.

**Results.**
* `applyRenames_again`: applying a table to what it gave changes nothing.
* `applyRenames_reverse`: applying the reversed table gives the set back, where the table renames
  names of the set only and no union repeats a member.
-/
namespace SchemaLayout

/-! ## The reversed table -/

namespace RenameTable

variable {table : RenameTable}

/-- The table that replaces every replacement by the name that it stands for. -/
def reverse (table : RenameTable) : RenameTable :=
  .ofList (table.toList.map Prod.swap)

theorem get?_reverse (hunshared : ∀ {a b target}, table.get? a = some target →
    table.get? b = some target → a = b) {name source : String} :
    table.reverse.get? name = some source ↔ table.get? source = some name := by
  have hmem : ∀ a b, (a, b) ∈ table.toList.map Prod.swap ↔ table.get? b = some a := by
    intro a b
    rw [← DefinitionSet.mem_toList_iff, List.mem_map]
    constructor
    · rintro ⟨⟨source, target⟩, hpair, hswap⟩
      cases hswap
      exact hpair
    · intro hpair
      exact ⟨(b, a), hpair, rfl⟩
  have hfunctional : NameMap.Functional (table.toList.map Prod.swap) := by
    intro a b c hb hc
    exact hunshared ((hmem a b).1 hb) ((hmem a c).1 hc)
  exact (NameMap.get?_ofList hfunctional).trans (hmem name source)

end RenameTable

/-! ## Fields renamed and renamed back -/

section Back

variable {table back : RenameTable}

/-- A reference without repeats becomes the normal form of its renamed leaves, whether or not the
table replaces anything. -/
theorem TypeRef.renamed_of_nodup {ref : TypeRef} (href : ref.Normal)
    (hdistinct : ref.members.Nodup) :
    ref.renamed table = ofMembers (ref.members.map (·.renamedLeaf table)) := by
  cases hempty : table.isEmpty with
  | true =>
    simp only [renamedLeaf_of_isEmpty hempty, List.map_id', renamed, hempty, if_true]
    exact ((ofMembers_members_iff href).2 hdistinct).symm
  | false => exact renamed_eq_ofMembers hempty ref

theorem TypeRef.renamed_back {ref : TypeRef} (href : ref.Normal) (hdistinct : ref.members.Nodup)
    (hback : ∀ leaf ∈ ref.members, (leaf.renamedLeaf table).renamedLeaf back = leaf) :
    (ref.renamed table).renamed back = ref := by
  have hleaves : ∀ leaf ∈ ref.members.map (·.renamedLeaf table), leaf.isUnion = false := by
    rw [List.forall_mem_map]
    exact fun leaf hleaf => isUnion_renamedLeaf (isUnion_of_mem_members href hleaf)
  have hreturned :
      (ref.members.map (·.renamedLeaf table)).map (·.renamedLeaf back) = ref.members := by
    rw [List.map_map]
    exact (List.map_congr_left hback).trans (List.map_id _)
  -- leaves that come back apart were not made equal on the way
  have hapart : (ref.members.map (·.renamedLeaf table)).Nodup :=
    .of_map (·.renamedLeaf back) (by rw [hreturned]; exact hdistinct)
  have hmembers : (ref.renamed table).members = ref.members.map (·.renamedLeaf table) := by
    rw [renamed_of_nodup href hdistinct, members_ofMembers hleaves,
      Distinct.eraseDups_eq_self_iff.2 hapart]
  rw [renamed_of_nodup href.renamed (hmembers ▸ hapart), hmembers, hreturned]
  exact (ofMembers_members_iff href).2 hdistinct

end Back

namespace DefinitionSet

variable {set result : DefinitionSet} {table : RenameTable}

/-! ## The same table again -/

theorem Applicable.apply_apply (h : Applicable set table) (name : String) :
    table.apply (table.apply name) = table.apply name := by
  cases hget : table.get? name with
  | none => rw [RenameTable.apply_of_get?_none hget, RenameTable.apply_of_get?_none hget]
  | some target =>
    rw [RenameTable.apply_of_get? hget, RenameTable.apply_of_get?_none (h.unchained hget)]

theorem Applicable.renamed_renamed (h : Applicable set table) {definition : TypeDefinition}
    (hwell : definition.WellFormed) :
    (definition.renamed table).renamed table = definition.renamed table := by
  rw [TypeDefinition.renamed_renamed]
  refine TypeDefinition.mapFields_eq fun field hfield => ?_
  simp only [Field.renamed, TypeRef.renamed_renamed h.apply_apply (hwell.normal field hfield)]

/-- **Renaming again.** Where a table renames an accepted set, the result is accepted, and applying
the table to it once more gives it again, whatever else the table names. -/
theorem applyRenames_again (hset : set.validate = .ok ())
    (h : set.applyRenames table = .ok result) :
    result.validate = .ok () ∧ result.applyRenames table = .ok result := by
  have hvalid := validate_eq_ok_iff.1 hset
  have hresult := valid_applyRenames hvalid h
  have hgone : ∀ {name target}, table.get? name = some target → ¬result.containsName name = true :=
    not_containsName_applyRenames hvalid.toKeyed h
  obtain ⟨happ, hsets⟩ := applyRenames_eq_ok_iff.1 h
  -- no name of the result is one that the table replaces, so none of its targets is in the way
  have hagain : Applicable result table :=
    ⟨happ.unshared, happ.unchained, fun hget hmem => (hgone hget hmem).elim⟩
  refine ⟨validate_eq_ok_iff.2 hresult, applyRenames_eq_self hresult.toKeyed hagain ?_ ?_⟩
  · intro name hmem
    cases hget : table.get? name with
    | none => exact RenameTable.apply_of_get?_none hget
    | some target => exact (hgone hget hmem).elim
  · intro name definition hget
    subst hsets
    obtain ⟨old, d, hold, -, rfl⟩ := (get?_renamedTypes hvalid.toKeyed happ).1 hget
    have hfixed := happ.renamed_renamed (hvalid.wellFormed hold)
    exact congrArg (fun d : TypeDefinition => { d with name := name }) hfixed

/-- A guide to one place, which a union lists twice. -/
def guide : DefinitionSet :=
  ⟨.ofList [("Guide", ⟨"Guide", .model,
      [⟨"place", .union [.definition "Zoo", .definition "Zoo"], false, false⟩], none⟩),
    ("Zoo", ⟨"Zoo", .model, [], none⟩)], ∅⟩

def renamedGuide : DefinitionSet :=
  ⟨.ofList [("Guide", ⟨"Guide", .model, [⟨"place", .definition "Park", false, false⟩], none⟩),
    ("Park", ⟨"Park", .model, [], none⟩)], ∅⟩

theorem applyRenames_again_guide : guide.validate = .ok () ∧
    guide.applyRenames (.ofList [("Lake", "Guide"), ("Zoo", "Park")]) = .ok renamedGuide ∧
    renamedGuide.validate = .ok () ∧
    renamedGuide.applyRenames (.ofList [("Lake", "Guide"), ("Zoo", "Park")]) = .ok renamedGuide :=
  have hset : guide.validate = .ok () := by decide
  have hrenamed : guide.applyRenames (.ofList [("Lake", "Guide"), ("Zoo", "Park")])
      = .ok renamedGuide := by decide
  ⟨hset, hrenamed, applyRenames_again hset hrenamed⟩

/-! ## Back to the set -/

theorem Applicable.reverse (hset : set.Keyed) (h : set.applyRenames table = .ok result) :
    Applicable result table.reverse := by
  have happ := (applyRenames_eq_ok_iff.1 h).1
  have hget : ∀ {name source}, table.reverse.get? name = some source ↔
      table.get? source = some name := RenameTable.get?_reverse happ.unshared
  refine ⟨fun {a b source} ha hb => ?_, fun {a source} ha => ?_, fun {a source} ha _ => ?_⟩
  · exact Option.some.inj ((hget.1 ha).symm.trans (hget.1 hb))
  · refine Option.eq_none_iff_forall_ne_some.2 fun other hother => ?_
    have hnone := happ.unchained (hget.1 hother)
    rw [hget.1 ha] at hnone
    cases hnone
  · exact Bool.eq_false_iff.2 (not_containsName_applyRenames hset h (hget.1 ha))

/-- Where the table renames names of the set only, each name of the set comes back. -/
theorem Applicable.reverse_apply (h : Applicable set table)
    (hsources : ∀ pair ∈ table.toList, set.containsName pair.1 = true) {name : String}
    (hname : set.containsName name = true) : table.reverse.apply (table.apply name) = name := by
  cases hget : table.get? name with
  | some target =>
    rw [RenameTable.apply_of_get? hget]
    exact RenameTable.apply_of_get? ((RenameTable.get?_reverse h.unshared).2 hget)
  | none =>
    rw [RenameTable.apply_of_get?_none hget]
    refine RenameTable.apply_of_get?_none ?_
    refine Option.eq_none_iff_forall_ne_some.2 fun source hback => ?_
    -- a name of the set is no target, since the source of the target is in the set too
    have hsource := (RenameTable.get?_reverse h.unshared).1 hback
    have hfree := h.free hsource (hsources _ (mem_toList_iff.2 hsource))
    rw [hname] at hfree
    cases hfree

theorem Applicable.renamedLeaf_back (h : Applicable set table)
    (hsources : ∀ pair ∈ table.toList, set.containsName pair.1 = true) {leaf : TypeRef}
    (hleaf : set.resolves leaf = true) :
    (leaf.renamedLeaf table).renamedLeaf table.reverse = leaf := by
  cases leaf with
  | scalar kind => rfl
  | union members => rfl
  | definition name =>
    exact congrArg _ (h.reverse_apply hsources (containsName_of_referencedName? hleaf rfl))
  | enumeration name =>
    exact congrArg _ (h.reverse_apply hsources (containsName_of_referencedName? hleaf rfl))

theorem Applicable.renamed_back (hset : set.Valid) (h : Applicable set table)
    (hsources : ∀ pair ∈ table.toList, set.containsName pair.1 = true) {name : String}
    {definition : TypeDefinition} (hget : set.types.get? name = some definition)
    (hdistinct : ∀ field ∈ definition.fields, field.type.members.Nodup) :
    (definition.renamed table).renamed table.reverse = definition := by
  rw [TypeDefinition.renamed_renamed]
  have hfields : ∀ field ∈ definition.fields,
      (field.renamed table).renamed table.reverse = id field := by
    intro field hfield
    have hback := TypeRef.renamed_back ((hset.wellFormed hget).normal field hfield)
      (hdistinct field hfield) fun leaf hleaf => h.renamedLeaf_back hsources
        (hset.resolved hget leaf (TypeDefinition.mem_leaves_iff.2 ⟨field, hfield, hleaf⟩))
    simp only [Field.renamed, hback, id]
  rw [TypeDefinition.mapFields_eq hfields, TypeDefinition.mapFields, List.map_id]

theorem Applicable.renamedTypes_back (hset : set.Valid) (h : Applicable set table)
    (hunions : ∀ definition ∈ set.types.values, ∀ field ∈ definition.fields,
      field.type.members.Nodup)
    (hsources : ∀ pair ∈ table.toList, set.containsName pair.1 = true)
    (enums : NameMap EnumDefinition) :
    renamedTypes ⟨set.renamedTypes table, enums⟩ table.reverse = set.types := by
  refine NameMap.ofList_placed_back (f := TypeDefinition.renamedAs table)
    (g := TypeDefinition.renamedAs table.reverse) hset.types (fun _ _ => rfl)
    (fun hmem => h.reverse_apply hsources (containsName_of_type hmem))
    fun {name definition} hget => ?_
  have hfields := h.renamed_back hset hsources hget
    (hunions definition (NameMap.mem_values_iff.2 ⟨name, hget⟩))
  rw [← hset.types hget]
  exact congrArg (fun back : TypeDefinition => { back with name := definition.name }) hfields

theorem Applicable.renamedEnums_back (hset : set.Keyed) (h : Applicable set table)
    (hsources : ∀ pair ∈ table.toList, set.containsName pair.1 = true)
    (types : NameMap TypeDefinition) :
    renamedEnums ⟨types, set.renamedEnums table⟩ table.reverse = set.enums := by
  refine NameMap.ofList_placed_back (f := EnumDefinition.renamedAs)
    (g := EnumDefinition.renamedAs) hset.enums (fun _ _ => rfl)
    (fun hmem => h.reverse_apply hsources (containsName_of_enum hmem)) fun hget => ?_
  rw [EnumDefinition.renamedAs, ← hset.enums hget]
  rfl

/-- **Renaming back.** Take an accepted set whose unions repeat no member, and a table that renames
names of the set only. Where the table renames the set, the table that takes each replacement back
to its source renames the result, and gives the set. -/
theorem applyRenames_reverse (hset : set.validate = .ok ())
    (hunions : ∀ definition ∈ set.types.values, ∀ field ∈ definition.fields,
      field.type.members.Nodup)
    (hsources : ∀ pair ∈ table.toList, set.containsName pair.1 = true)
    (h : set.applyRenames table = .ok result) :
    (∀ name source, table.reverse.get? name = some source ↔ table.get? source = some name) ∧
      result.applyRenames table.reverse = .ok set := by
  have hvalid := validate_eq_ok_iff.1 hset
  have hreverse := Applicable.reverse hvalid.toKeyed h
  obtain ⟨happ, rfl⟩ := applyRenames_eq_ok_iff.1 h
  refine ⟨fun _ _ => RenameTable.get?_reverse happ.unshared,
    applyRenames_eq_ok_iff.2 ⟨hreverse, ?_⟩⟩
  rw [happ.renamedTypes_back hvalid hunions hsources,
    happ.renamedEnums_back hvalid.toKeyed hsources]

/-- An animal with a place where it lives and an enum of what it eats. -/
def habitat (place diet : String) : DefinitionSet :=
  ⟨.ofList [
    ("Animal", ⟨"Animal", .model, [⟨"home", .definition place, false, false⟩,
      ⟨"food", .union [.enumeration diet, .definition place, .scalar .string], true, true⟩], none⟩),
    (place, ⟨place, .model, [⟨"parent", .definition place, true, false⟩], none⟩)],
    .ofList [(diet, ⟨diet, ["Meat", "Plants"]⟩)]⟩

theorem applyRenames_reverse_habitat : (habitat "Zoo" "Diet").validate = .ok () ∧
    (habitat "Zoo" "Diet").applyRenames (.ofList [("Diet", "Food"), ("Zoo", "Park")])
      = .ok (habitat "Park" "Food") ∧
    (habitat "Park" "Food").applyRenames
        (RenameTable.ofList [("Diet", "Food"), ("Zoo", "Park")]).reverse
      = .ok (habitat "Zoo" "Diet") := by
  have hset : (habitat "Zoo" "Diet").validate = .ok () := by decide
  have hrenamed : (habitat "Zoo" "Diet").applyRenames (.ofList [("Diet", "Food"), ("Zoo", "Park")])
      = .ok (habitat "Park" "Food") := by decide
  exact ⟨hset, hrenamed, (applyRenames_reverse hset (by decide) (by decide) hrenamed).2⟩

end DefinitionSet

end SchemaLayout
