import SchemaLayout.Proofs.Names.Distinct
import SchemaLayout.Proofs.Schema.Validity

/-!
# Substituting names in references

What replacing leaves does to a reference in normal form: it stays in normal form, and its leaves
are the replaced leaves (`mem_members_mapLeaves`). Renaming replaces the name of each leaf by
`RenameTable.apply`, so the leaves of a renamed definition are the renamed leaves
(`mem_leaves_renamed`) and a well-formed definition stays well-formed.
-/
namespace SchemaLayout

namespace TypeRef

instance : Nonempty TypeRef := ⟨.scalar .string⟩

/-! ## Normal forms -/

theorem members_of_not_union {ref : TypeRef} (h : ref.isUnion = false) : ref.members = [ref] := by
  cases ref with
  | union members => simp [isUnion] at h
  | scalar kind => rfl
  | enumeration name => rfl
  | definition name => rfl

theorem normal_of_not_union {ref : TypeRef} (h : ref.isUnion = false) : ref.Normal := by
  cases ref with
  | union members => simp [isUnion] at h
  | scalar kind => trivial
  | enumeration name => trivial
  | definition name => trivial

theorem flatMap_members {l : List TypeRef} (h : ∀ x ∈ l, x.isUnion = false) :
    l.flatMap members = l := by
  induction l with
  | nil => rfl
  | cons x l ih =>
    rw [List.flatMap_cons, members_of_not_union (h x List.mem_cons_self),
      ih fun y hy => h y (List.mem_cons_of_mem _ hy)]
    rfl

/-- The members of a normal form of leaves are the leaves without their repeats. -/
theorem members_ofMembers {l : List TypeRef} (h : ∀ x ∈ l, x.isUnion = false) :
    (ofMembers l).members = l.eraseDups := by
  unfold ofMembers
  rw [flatMap_members h]
  split
  · rename_i only heq
    rw [heq]
    have honly : only ∈ l.eraseDups := by simp [heq]
    exact members_of_not_union (h only (List.mem_eraseDups.1 honly))
  · rfl

theorem normal_ofMembers {l : List TypeRef} (hne : l ≠ []) (h : ∀ x ∈ l, x.isUnion = false) :
    (ofMembers l).Normal := by
  have hleaf : ∀ x ∈ l.eraseDups, x.isUnion = false := fun x hx => h x (List.mem_eraseDups.1 hx)
  unfold ofMembers
  rw [flatMap_members h]
  split
  · rename_i only heq
    exact normal_of_not_union (hleaf only (by simp [heq]))
  · rename_i hmany
    refine ⟨?_, hleaf⟩
    match hl : l.eraseDups with
    | [] =>
      obtain ⟨x, hx⟩ := List.exists_mem_of_ne_nil l hne
      rw [← List.mem_eraseDups, hl] at hx
      cases hx
    | [only] => exact absurd hl (hmany only)
    | x :: y :: rest => simp

theorem ofMembers_singleton {x : TypeRef} (h : x.isUnion = false) : ofMembers [x] = x := by
  unfold ofMembers
  rw [flatMap_members (by simpa using h)]
  rfl

/-- Lists of leaves that are one without their repeats have one normal form. -/
theorem ofMembers_congr {l r : List TypeRef} (hl : ∀ x ∈ l, x.isUnion = false)
    (hr : ∀ x ∈ r, x.isUnion = false) (h : l.eraseDups = r.eraseDups) :
    ofMembers l = ofMembers r := by
  unfold ofMembers
  rw [flatMap_members hl, flatMap_members hr, h]

/-- The normal form of the members of a reference is the reference where no member repeats. -/
theorem ofMembers_members_iff {ref : TypeRef} (h : ref.Normal) :
    ofMembers ref.members = ref ↔ ref.members.Nodup := by
  rw [← Distinct.eraseDups_eq_self_iff]
  cases ref with
  | union members =>
    constructor
    · intro heq
      exact (members_ofMembers h.2).symm.trans (congrArg TypeRef.members heq)
    · intro hdistinct
      have hdups : members.eraseDups = members := hdistinct
      have hlength : 2 ≤ members.length := h.1
      show ofMembers members = .union members
      unfold ofMembers
      rw [flatMap_members h.2, hdups]
      split
      · simp at hlength
      · rfl
  | scalar kind => exact iff_of_true (ofMembers_singleton rfl) rfl
  | enumeration name => exact iff_of_true (ofMembers_singleton rfl) rfl
  | definition name => exact iff_of_true (ofMembers_singleton rfl) rfl

/-! ## Replacing leaves -/

/-- Replacements of other leaves than those of a reference do not count. -/
theorem mapLeaves_congr {f g : TypeRef → Option TypeRef} {ref : TypeRef}
    (h : ∀ leaf ∈ ref.members, f leaf = g leaf) : ref.mapLeaves f = ref.mapLeaves g := by
  cases ref with
  | union members =>
    refine congrArg ofMembers (List.map_congr_left fun leaf hleaf => ?_)
    rw [h leaf hleaf]
  | scalar kind => exact congrArg (Option.getD · _) (h _ (List.mem_singleton_self _))
  | enumeration name => exact congrArg (Option.getD · _) (h _ (List.mem_singleton_self _))
  | definition name => exact congrArg (Option.getD · _) (h _ (List.mem_singleton_self _))

/-- The reference is a leaf, or a union of leaves. -/
def Flat (ref : TypeRef) : Prop := ∀ leaf ∈ ref.members, leaf.isUnion = false

instance (ref : TypeRef) : Decidable ref.Flat :=
  inferInstanceAs (Decidable (∀ leaf ∈ ref.members, leaf.isUnion = false))

theorem Normal.flat {ref : TypeRef} (h : ref.Normal) : ref.Flat :=
  fun _ => isUnion_of_mem_members h

/-- What is put in the place of leaves are leaves. -/
def KeepsLeaves (f : TypeRef → Option TypeRef) : Prop :=
  ∀ leaf new, leaf.isUnion = false → f leaf = some new → new.isUnion = false

section Replacing

variable {f : TypeRef → Option TypeRef} (hf : KeepsLeaves f)
include hf

theorem isUnion_getD {x : TypeRef} (hx : x.isUnion = false) : ((f x).getD x).isUnion = false := by
  cases h : f x with
  | none => exact hx
  | some y => exact hf x y hx h

/-- What becomes of a reference depends on its leaves only. -/
theorem mapLeaves_eq_ofMembers (ref : TypeRef) :
    ref.mapLeaves f = ofMembers (ref.members.map fun x => (f x).getD x) := by
  cases ref with
  | union members => rfl
  | scalar kind => exact (ofMembers_singleton (isUnion_getD hf rfl)).symm
  | enumeration name => exact (ofMembers_singleton (isUnion_getD hf rfl)).symm
  | definition name => exact (ofMembers_singleton (isUnion_getD hf rfl)).symm

theorem Flat.isUnion_replaced {ref : TypeRef} (href : ref.Flat) :
    ∀ y ∈ ref.members.map (fun x => (f x).getD x), y.isUnion = false := by
  rw [List.forall_mem_map]
  exact fun x hx => isUnion_getD hf (href x hx)

theorem members_mapLeaves {ref : TypeRef} (href : ref.Flat) :
    (ref.mapLeaves f).members = (ref.members.map fun x => (f x).getD x).eraseDups := by
  rw [mapLeaves_eq_ofMembers hf, members_ofMembers (href.isUnion_replaced hf)]

theorem mem_members_mapLeaves {ref leaf : TypeRef} (href : ref.Flat) :
    leaf ∈ (ref.mapLeaves f).members ↔ ∃ x ∈ ref.members, (f x).getD x = leaf := by
  rw [members_mapLeaves hf href, List.mem_eraseDups, List.mem_map]

theorem Normal.mapLeaves {ref : TypeRef} (href : ref.Normal) : (ref.mapLeaves f).Normal := by
  cases ref with
  | union members =>
    refine normal_ofMembers (fun hnil => ?_) (href.flat.isUnion_replaced hf)
    have hlen := href.1
    rw [List.map_eq_nil_iff.1 hnil] at hlen
    simp at hlen
  | scalar kind => exact normal_of_not_union (isUnion_getD hf rfl)
  | enumeration name => exact normal_of_not_union (isUnion_getD hf rfl)
  | definition name => exact normal_of_not_union (isUnion_getD hf rfl)

end Replacing

/-! ## One replacement after another -/

/-- Both replacements, the second for what the first gives. -/
def andThen (f g : TypeRef → Option TypeRef) (leaf : TypeRef) : Option TypeRef :=
  match f leaf with
  | some new => some ((g new).getD new)
  | none => g leaf

theorem andThen_getD (f g : TypeRef → Option TypeRef) (leaf : TypeRef) :
    (andThen f g leaf).getD leaf = (g ((f leaf).getD leaf)).getD ((f leaf).getD leaf) := by
  unfold andThen
  cases f leaf with
  | some new => rfl
  | none => rfl

section Twice

variable {f g : TypeRef → Option TypeRef} (hf : KeepsLeaves f) (hg : KeepsLeaves g)
include hf hg

theorem KeepsLeaves.andThen : KeepsLeaves (andThen f g) := by
  intro leaf new hleaf h
  unfold TypeRef.andThen at h
  cases hfirst : f leaf with
  | some between =>
    rw [hfirst] at h
    cases h
    exact isUnion_getD hg (hf leaf between hleaf hfirst)
  | none =>
    rw [hfirst] at h
    exact hg leaf new hleaf h

/-- Replacing leaves twice is replacing them once. Repeats that the first normal form drops, and a
union that it opens, make no difference to the second. -/
theorem Flat.mapLeaves_mapLeaves {ref : TypeRef} (href : ref.Flat) :
    (ref.mapLeaves f).mapLeaves g = ref.mapLeaves (TypeRef.andThen f g) := by
  have hboth : (ref.members.map fun x => (f x).getD x).map (fun x => (g x).getD x)
      = ref.members.map fun x => (TypeRef.andThen f g x).getD x := by
    simp only [List.map_map, Function.comp_def, andThen_getD]
  have hfirst := href.isUnion_replaced hf
  have hsecond := href.isUnion_replaced (hf.andThen hg)
  rw [mapLeaves_eq_ofMembers hg, members_mapLeaves hf href, mapLeaves_eq_ofMembers (hf.andThen hg),
    ← hboth]
  refine ofMembers_congr ?_ (hboth ▸ hsecond) (Distinct.eraseDups_map_eraseDups _ _)
  rw [List.forall_mem_map]
  exact fun x hx => isUnion_getD hg (hfirst x (List.mem_eraseDups.1 hx))

end Twice

/-! ## Renaming leaves -/

/-- A leaf with its name replaced. -/
def renamedLeaf (table : RenameTable) : TypeRef → TypeRef
  | .enumeration name => .enumeration (table.apply name)
  | .definition name => .definition (table.apply name)
  | leaf => leaf

theorem replacement?_getD (table : RenameTable) (leaf : TypeRef) :
    (replacement? table leaf).getD leaf = leaf.renamedLeaf table := by
  cases leaf with
  | scalar kind => rfl
  | union members => rfl
  | enumeration name =>
    simp only [replacement?, renamedLeaf, RenameTable.apply]
    cases table.get? name <;> rfl
  | definition name =>
    simp only [replacement?, renamedLeaf, RenameTable.apply]
    cases table.get? name <;> rfl

theorem keepsLeaves_replacement? (table : RenameTable) : KeepsLeaves (replacement? table) := by
  intro leaf new _ h
  cases leaf with
  | scalar kind => cases h
  | union members => cases h
  | enumeration name =>
    obtain ⟨target, -, rfl⟩ := Option.map_eq_some_iff.1 h
    rfl
  | definition name =>
    obtain ⟨target, -, rfl⟩ := Option.map_eq_some_iff.1 h
    rfl

end TypeRef

/-! ## Tables -/

namespace RenameTable

theorem apply_of_get? {table : RenameTable} {name target : String}
    (h : table.get? name = some target) : table.apply name = target := by
  simp [apply, h]

theorem apply_of_get?_none {table : RenameTable} {name : String} (h : table.get? name = none) :
    table.apply name = name := by
  simp [apply, h]

theorem isEmpty_iff {table : RenameTable} :
    table.isEmpty = true ↔ ∀ name, table.get? name = none :=
  NameMap.isEmpty_iff_forall.trans (forall_congr' fun _ => NameMap.get?_eq_none_iff.symm)

theorem get?_eq_none_of_isEmpty {table : RenameTable} (h : table.isEmpty = true) (name : String) :
    table.get? name = none :=
  isEmpty_iff.1 h name

theorem apply_of_isEmpty {table : RenameTable} (h : table.isEmpty = true) (name : String) :
    table.apply name = name :=
  apply_of_get?_none (get?_eq_none_of_isEmpty h name)

end RenameTable

theorem TypeRef.replacement?_eq_none_of_isEmpty {table : RenameTable} (h : table.isEmpty = true)
    (leaf : TypeRef) : leaf.replacement? table = none := by
  cases leaf <;> simp only [replacement?, RenameTable.isEmpty_iff.1 h, Option.map_none]

theorem TypeRef.renamedLeaf_of_isEmpty {table : RenameTable} (h : table.isEmpty = true)
    (leaf : TypeRef) : leaf.renamedLeaf table = leaf := by
  cases leaf <;> simp only [renamedLeaf, RenameTable.apply_of_isEmpty h]

theorem TypeRef.renamed_of_isEmpty {table : RenameTable} (h : table.isEmpty = true)
    (ref : TypeRef) : ref.renamed table = ref :=
  if_pos h

theorem TypeRef.mem_members_renamed {table : RenameTable} {ref leaf : TypeRef}
    (href : ref.Normal) :
    leaf ∈ (ref.renamed table).members ↔ ∃ x ∈ ref.members, x.renamedLeaf table = leaf := by
  unfold renamed
  split
  · rename_i hempty
    simp only [renamedLeaf_of_isEmpty hempty, exists_eq_right]
  · rw [mem_members_mapLeaves (keepsLeaves_replacement? table) href.flat]
    simp only [replacement?_getD]

theorem TypeRef.isUnion_renamedLeaf {table : RenameTable} {leaf : TypeRef}
    (h : leaf.isUnion = false) : (leaf.renamedLeaf table).isUnion = false := by
  cases leaf with
  | union members => cases h
  | scalar kind => rfl
  | enumeration name => rfl
  | definition name => rfl

theorem TypeRef.renamed_eq_ofMembers {table : RenameTable} (h : table.isEmpty = false)
    (ref : TypeRef) :
    ref.renamed table = ofMembers (ref.members.map (·.renamedLeaf table)) := by
  unfold renamed
  rw [h, if_neg Bool.false_ne_true, mapLeaves_eq_ofMembers (keepsLeaves_replacement? table)]
  simp only [replacement?_getD]

/-- Seen through a map and without repeats, the members of a renamed reference are its renamed
members. -/
theorem TypeRef.eraseDups_map_members_renamed {β : Type u} [BEq β] [LawfulBEq β] (f : TypeRef → β)
    {table : RenameTable} {ref : TypeRef} (href : ref.Normal) :
    ((ref.renamed table).members.map f).eraseDups
      = (ref.members.map fun x => f (x.renamedLeaf table)).eraseDups := by
  unfold renamed
  split
  · rename_i hempty
    simp only [renamedLeaf_of_isEmpty hempty]
  · rw [members_mapLeaves (keepsLeaves_replacement? table) href.flat,
      Distinct.eraseDups_map_eraseDups, List.map_map]
    simp only [Function.comp_def, replacement?_getD]

theorem TypeRef.Normal.renamed {table : RenameTable} {ref : TypeRef} (href : ref.Normal) :
    (ref.renamed table).Normal := by
  unfold TypeRef.renamed
  split
  · exact href
  · exact href.mapLeaves (keepsLeaves_replacement? table)

/-! ## Renaming twice -/

/-- Two tables in a row rename a reference as one does that turns its leaves into the same leaves.
What their normal form drops is dropped by that one too. -/
theorem TypeRef.renamed_trans {first second both : RenameTable} {ref : TypeRef}
    (href : ref.Normal) (hempty : both.isEmpty = (first.isEmpty && second.isEmpty))
    (hleaf : ∀ leaf ∈ ref.members,
      (leaf.renamedLeaf first).renamedLeaf second = leaf.renamedLeaf both) :
    (ref.renamed first).renamed second = ref.renamed both := by
  have hmap : (ref.members.map (·.renamedLeaf first)).map (·.renamedLeaf second) =
      ref.members.map (·.renamedLeaf both) := by
    rw [List.map_map]
    exact List.map_congr_left hleaf
  cases hfirst : first.isEmpty with
  | true =>
    rw [hfirst, Bool.true_and] at hempty
    simp only [renamedLeaf_of_isEmpty hfirst, List.map_id'] at hmap
    rw [renamed_of_isEmpty hfirst]
    cases hsecond : second.isEmpty with
    | true => rw [renamed_of_isEmpty hsecond, renamed_of_isEmpty (hempty.trans hsecond)]
    | false =>
      rw [renamed_eq_ofMembers hsecond, renamed_eq_ofMembers (hempty.trans hsecond), hmap]
  | false =>
    rw [hfirst, Bool.false_and] at hempty
    cases hsecond : second.isEmpty with
    | true =>
      simp only [renamedLeaf_of_isEmpty hsecond, List.map_id'] at hmap
      rw [renamed_of_isEmpty hsecond, renamed_eq_ofMembers hfirst, renamed_eq_ofMembers hempty,
        hmap]
    | false =>
      have hkeeps := (keepsLeaves_replacement? first).andThen (keepsLeaves_replacement? second)
      have hfused : (ref.renamed first).renamed second
          = ref.mapLeaves (andThen (replacement? first) (replacement? second)) := by
        unfold renamed
        rw [hfirst, hsecond, if_neg Bool.false_ne_true, if_neg Bool.false_ne_true]
        exact href.flat.mapLeaves_mapLeaves (keepsLeaves_replacement? first)
          (keepsLeaves_replacement? second)
      rw [hfused, mapLeaves_eq_ofMembers hkeeps, renamed_eq_ofMembers hempty, ← hmap, List.map_map]
      simp only [andThen_getD, replacement?_getD, Function.comp_def]

section Twice

variable {table : RenameTable}
  (htwice : ∀ name, table.apply (table.apply name) = table.apply name)
include htwice

theorem TypeRef.renamedLeaf_renamedLeaf (leaf : TypeRef) :
    (leaf.renamedLeaf table).renamedLeaf table = leaf.renamedLeaf table := by
  cases leaf <;> simp only [renamedLeaf, htwice]

/-- A table that turns no name twice renames a reference once and for all. -/
theorem TypeRef.renamed_renamed {ref : TypeRef} (href : ref.Normal) :
    (ref.renamed table).renamed table = ref.renamed table :=
  renamed_trans href (Bool.and_self _).symm fun leaf _ => renamedLeaf_renamedLeaf htwice leaf

end Twice

/-! ## Definitions -/

namespace TypeDefinition

/-- The definition with the names in its fields replaced. -/
def renamed (table : RenameTable) (definition : TypeDefinition) : TypeDefinition :=
  definition.mapFields (·.renamed table)

@[simp] theorem renamed_name (table : RenameTable) (definition : TypeDefinition) :
    (definition.renamed table).name = definition.name := rfl

theorem mapFields_eq {definition : TypeDefinition} {f g : Field → Field}
    (h : ∀ field ∈ definition.fields, f field = g field) :
    definition.mapFields f = definition.mapFields g := by
  unfold mapFields
  rw [List.map_congr_left h]

theorem renamed_renamed (table next : RenameTable) (definition : TypeDefinition) :
    (definition.renamed table).renamed next
      = definition.mapFields fun field => (field.renamed table).renamed next := by
  simp only [renamed, mapFields, List.map_map, Function.comp_def]

theorem WellFormed.mapFields {definition : TypeDefinition} (h : definition.WellFormed)
    {f : Field → Field} (hname : ∀ field, (f field).name = field.name)
    (hnormal : ∀ field ∈ definition.fields, (f field).type.Normal) :
    (definition.mapFields f).WellFormed where
  distinct := by
    have hnames : (definition.fields.map f).map (·.name) = definition.fields.map (·.name) := by
      rw [List.map_map]
      exact List.map_congr_left fun field _ => hname field
    show ((definition.fields.map f).map (·.name)).Nodup
    rw [hnames]
    exact h.distinct
  normal field hfield := by
    obtain ⟨old, hold, rfl⟩ := List.mem_map.1 hfield
    exact hnormal old hold

theorem WellFormed.renamed {definition : TypeDefinition} (h : definition.WellFormed)
    (table : RenameTable) : (definition.renamed table).WellFormed :=
  h.mapFields (fun _ => rfl) fun field hfield => (h.normal field hfield).renamed

/-- The leaves of a renamed definition are its renamed leaves. -/
theorem mem_leaves_renamed {definition : TypeDefinition} (h : definition.WellFormed)
    {table : RenameTable} {leaf : TypeRef} :
    leaf ∈ (definition.renamed table).leaves ↔
      ∃ x ∈ definition.leaves, x.renamedLeaf table = leaf := by
  simp only [mem_leaves_iff]
  constructor
  · rintro ⟨field, hfield, hleaf⟩
    obtain ⟨old, hold, rfl⟩ := List.mem_map.1 hfield
    obtain ⟨x, hx, rfl⟩ := (TypeRef.mem_members_renamed (h.normal old hold)).1 hleaf
    exact ⟨x, ⟨old, hold, hx⟩, rfl⟩
  · rintro ⟨x, ⟨old, hold, hx⟩, rfl⟩
    refine ⟨old.renamed table, List.mem_map.2 ⟨old, hold, rfl⟩, ?_⟩
    exact (TypeRef.mem_members_renamed (h.normal old hold)).2 ⟨x, hx, rfl⟩

theorem renamed_of_isEmpty {table : RenameTable} (h : table.isEmpty = true)
    (definition : TypeDefinition) : definition.renamed table = definition := by
  have hfield : ∀ field : Field, field.renamed table = field := by
    intro field
    simp only [Field.renamed, TypeRef.renamed_of_isEmpty h]
  simp only [renamed, mapFields, hfield, List.map_id']

end TypeDefinition

/-! ## Sets -/

namespace DefinitionSet

theorem get?_rewriteReferences (set : DefinitionSet) (table : RenameTable) (name : String) :
    (set.rewriteReferences table).types.get? name
      = (set.types.get? name).map (·.renamed table) := by
  unfold rewriteReferences
  split
  · rename_i hempty
    cases set.types.get? name with
    | none => rfl
    | some definition => rw [Option.map_some, TypeDefinition.renamed_of_isEmpty hempty]
  · exact NameMap.get?_mapValues ..

theorem mem_rewriteReferences {set : DefinitionSet} {table : RenameTable} {name : String} :
    name ∈ (set.rewriteReferences table).types ↔ name ∈ set.types := by
  simp only [NameMap.mem_iff_get?, get?_rewriteReferences, Option.map_eq_some_iff]
  constructor
  · rintro ⟨_, definition, hget, -⟩
    exact ⟨definition, hget⟩
  · rintro ⟨definition, hget⟩
    exact ⟨_, definition, hget, rfl⟩

theorem enums_rewriteReferences (set : DefinitionSet) (table : RenameTable) :
    (set.rewriteReferences table).enums = set.enums := by
  unfold rewriteReferences
  split <;> rfl

theorem Keyed.rewriteReferences {set : DefinitionSet} (h : set.Keyed) (table : RenameTable) :
    (set.rewriteReferences table).Keyed where
  types hget := by
    rw [get?_rewriteReferences] at hget
    obtain ⟨old, hold, rfl⟩ := Option.map_eq_some_iff.1 hget
    rw [TypeDefinition.renamed_name]
    exact h.types hold
  enums hget := by
    rw [enums_rewriteReferences] at hget
    exact h.enums hget
  disjoint hmem := by
    rw [enums_rewriteReferences]
    exact h.disjoint (mem_rewriteReferences.1 hmem)

/-- A leaf resolves under its new name where all new names of the set's definitions do. -/
theorem resolves_renamedLeaf {set result : DefinitionSet} {table : RenameTable} {leaf : TypeRef}
    (hset : set.resolves leaf = true)
    (htypes : ∀ name ∈ set.types, table.apply name ∈ result.types)
    (henums : ∀ name ∈ set.enums, table.apply name ∈ result.enums) :
    result.resolves (leaf.renamedLeaf table) = true := by
  cases leaf with
  | scalar kind => rfl
  | union members => rfl
  | definition name => exact htypes name hset
  | enumeration name => exact henums name hset

end DefinitionSet

end SchemaLayout
