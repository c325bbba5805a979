import SchemaLayout.Proofs.Reserved.Table

/-!
# What renaming reserved names gives

Rules rename the names of a set that they have a replacement for (`Renames`). The table of the set
holds just these, so no replacement in it is replaced again unless its name is taken: renaming fails
only for replacements that are shared or taken (`applicable_renameTable_iff`).

**Result.** `renameReserved_outcome`: when renaming succeeds, and what becomes of every definition
(`RenamedBy`).
-/
namespace SchemaLayout.DefinitionSet

variable {set result : DefinitionSet} {rules : RenameRules} {table : RenameTable}

/-! ## New names -/

/-- The rules replace a name of the set: by its override, or by the name with the suffix where it is
reserved. -/
def Renames (set : DefinitionSet) (rules : RenameRules) (name target : String) : Prop :=
  set.containsName name = true ∧ rules.replacement? name = some target

def RenamesSome (set : DefinitionSet) (rules : RenameRules) : Prop :=
  ∃ name target, set.Renames rules name target

theorem renamesSome_iff : set.RenamesSome rules ↔
    ∃ pair ∈ rules.replacements, set.containsName pair.1 = true := by
  constructor
  · rintro ⟨name, target, hname, htarget⟩
    exact ⟨(name, target), RenameRules.mem_replacements.2 htarget, hname⟩
  · rintro ⟨⟨name, target⟩, hpair, hname⟩
    exact ⟨name, target, hname, RenameRules.mem_replacements.1 hpair⟩

instance : Decidable (set.RenamesSome rules) := decidable_of_iff _ renamesSome_iff.symm

/-- What a name becomes: its replacement where the rules replace it. -/
def newName (set : DefinitionSet) (rules : RenameRules) (name : String) : String :=
  if set.containsName name then (rules.replacement? name).getD name else name

/-- A leaf with the new name of what it refers to. -/
def retargeted (set : DefinitionSet) (rules : RenameRules) : TypeRef → TypeRef
  | .definition name => .definition (set.newName rules name)
  | .enumeration name => .enumeration (set.newName rules name)
  | leaf => leaf

/-- A field with new names in its leaves. Where anything is renamed, unions are put in normal
form. -/
def retargetedField (set : DefinitionSet) (rules : RenameRules) (field : Field) : Field :=
  if set.RenamesSome rules then
    { field with type := .ofMembers (field.type.members.map (set.retargeted rules)) }
  else field

/-- What the rules make of a set: an accepted set with the same definitions, each under its new name
and with new names in its leaves. -/
structure RenamedBy (set : DefinitionSet) (rules : RenameRules) (result : DefinitionSet) :
    Prop where
  valid : result.validate = .ok ()
  typeCount : result.types.size = set.types.size
  enumCount : result.enums.size = set.enums.size
  types : ∀ name definition, result.types.get? name = some definition ↔
    ∃ old d, set.types.get? old = some d ∧ set.newName rules old = name ∧
      definition = { d with name := name, fields := d.fields.map (set.retargetedField rules) }
  enums : ∀ name definition, result.enums.get? name = some definition ↔
    ∃ old d, set.enums.get? old = some d ∧ set.newName rules old = name ∧
      definition = { d with name := name }

/-! ## The table of the set -/

section Table

variable (htable : set.renameTable rules = .ok table)
include htable

theorem get?_renameTable_eq_some_iff {name target : String} :
    table.get? name = some target ↔ set.Renames rules name target := by
  rw [get?_renameTable htable]
  unfold Renames
  split
  · rename_i hname
    simp [hname]
  · rename_i hname
    simp [hname]

theorem isEmpty_renameTable_iff : table.isEmpty = true ↔ ¬set.RenamesSome rules := by
  simp only [RenameTable.isEmpty_iff, RenamesSome, ← get?_renameTable_eq_some_iff htable,
    not_exists, Option.eq_none_iff_forall_ne_some, ne_eq]

theorem apply_renameTable (name : String) : table.apply name = set.newName rules name := by
  unfold RenameTable.apply newName
  rw [get?_renameTable htable]
  split <;> rfl

theorem renamedLeaf_renameTable (leaf : TypeRef) :
    leaf.renamedLeaf table = set.retargeted rules leaf := by
  cases leaf <;> simp only [TypeRef.renamedLeaf, retargeted, apply_renameTable htable]

theorem renamed_renameTable (field : Field) :
    field.renamed table = set.retargetedField rules field := by
  unfold retargetedField Field.renamed
  split
  · rename_i hsome
    have hempty : table.isEmpty = false :=
      Bool.eq_false_iff.2 fun hempty => (isEmpty_renameTable_iff htable).1 hempty hsome
    rw [TypeRef.renamed_eq_ofMembers hempty]
    simp only [renamedLeaf_renameTable htable]
  · rename_i hnone
    rw [TypeRef.renamed, if_pos ((isEmpty_renameTable_iff htable).2 hnone)]

/-- The table of a set renames it where no replacement is shared and none is taken: a replacement
that is replaced itself would be the name of a definition. -/
theorem applicable_renameTable_iff : Applicable set table ↔
    (∀ a b target, set.Renames rules a target → set.Renames rules b target → a = b) ∧
      ∀ name target, set.Renames rules name target → set.containsName target = false := by
  simp only [← get?_renameTable_eq_some_iff htable]
  have hsource : ∀ {name target}, table.get? name = some target → set.containsName name = true :=
    fun hget => ((get?_renameTable_eq_some_iff htable).1 hget).1
  constructor
  · intro h
    exact ⟨fun _ _ _ => h.unshared, fun _ _ hget => h.free hget (hsource hget)⟩
  · rintro ⟨hunshared, hfree⟩
    refine ⟨fun ha hb => hunshared _ _ _ ha hb, fun {a target} ha => ?_, fun ha _ => hfree _ _ ha⟩
    refine Option.eq_none_iff_forall_ne_some.2 fun next hnext => ?_
    exact Bool.false_ne_true ((hfree a target ha).symm.trans (hsource hnext))

/-- An empty table may be applied as well. -/
theorem renameReserved_eq_applyRenames (hset : set.Keyed) :
    set.renameReserved rules = set.applyRenames table := by
  unfold renameReserved
  rw [htable]
  show (if table.isEmpty then Except.ok set else set.applyRenames table) = _
  split
  · rename_i hempty
    exact (applyRenames_eq_self hset (applicable_of_isEmpty hempty)
      (fun name _ => RenameTable.apply_of_isEmpty hempty name)
      fun _ => TypeDefinition.renamed_of_isEmpty hempty _).symm
  · rfl

end Table

/-! ## Renaming as a whole -/

theorem renamedBy_of_applyRenames (hset : set.Valid) (htable : set.renameTable rules = .ok table)
    (h : set.applyRenames table = .ok result) : set.RenamedBy rules result := by
  have hvalid := validate_eq_ok_iff.2 (valid_applyRenames hset h)
  obtain ⟨happ, rfl⟩ := applyRenames_eq_ok_iff.1 h
  obtain ⟨htypes, henums⟩ := size_applyRenames hset.toKeyed happ
  have hfields : ∀ d : TypeDefinition,
      (d.renamed table).fields = d.fields.map (set.retargetedField rules) := fun d =>
    List.map_congr_left fun field _ => renamed_renameTable htable field
  refine ⟨hvalid, htypes, henums, fun name definition => ?_, fun name definition => ?_⟩
  · simp only [get?_renamedTypes hset.toKeyed happ, apply_renameTable htable, ← hfields]
    exact exists₂_congr fun _ _ => and_congr_right fun _ => and_congr_right fun _ => eq_comm
  · simp only [get?_renamedEnums hset.toKeyed happ, apply_renameTable htable]
    exact exists₂_congr fun _ _ => and_congr_right fun _ => and_congr_right fun _ => eq_comm

/-- **Renaming reserved names.** For an accepted set and rules without a conflict, renaming succeeds
exactly when no two names of the set get one replacement, and no replacement is the name of a
definition. The result is accepted and has as many types and as many enums. Its definitions are
those of the set under their new names, and every leaf that refers to a renamed one has the new
name. -/
theorem renameReserved_outcome (hset : set.validate = .ok ()) (hrules : rules.conflict? = none) :
    ((∃ result, set.renameReserved rules = .ok result) ↔
      (∀ a b target, set.Renames rules a target → set.Renames rules b target → a = b) ∧
        ∀ name target, set.Renames rules name target → set.containsName target = false) ∧
    ∀ result, set.renameReserved rules = .ok result → set.RenamedBy rules result := by
  have hvalid := validate_eq_ok_iff.1 hset
  obtain ⟨table, htable⟩ := exists_renameTable set hrules
  rw [renameReserved_eq_applyRenames htable hvalid.toKeyed, ← applicable_renameTable_iff htable]
  refine ⟨⟨fun ⟨_, h⟩ => (applyRenames_eq_ok_iff.1 h).1,
    fun happ => ⟨_, applyRenames_eq_ok_iff.2 ⟨happ, rfl⟩⟩⟩, fun _ => ?_⟩
  exact renamedBy_of_applyRenames hvalid htable

/-- A query for zoos and their symbols. -/
def zooQuery : DefinitionSet :=
  ⟨.ofList [
    ("Query", ⟨"Query", .output, [⟨"zoo", .union [.definition "Zoo", .enumeration "Symbol",
      .definition "Zoo"], true, false⟩], none⟩),
    ("Zoo", ⟨"Zoo", .model, [⟨"next", .definition "Zoo", true, true⟩], none⟩)],
    .ofList [("Symbol", ⟨"Symbol", ["Lion"]⟩)]⟩

/-- Rules that reserve a name twice, override a reserved name, and override a name that is not
there. -/
def zooRules : RenameRules :=
  ⟨["Query", "Symbol", "Zoo", "Query"], "Type", .ofList [("Lake", "Query2"), ("Zoo", "Park")]⟩

def zooPairs : List (String × String) :=
  [("Query", "QueryType"), ("Symbol", "SymbolType"), ("Zoo", "Park")]

theorem renameReserved_outcome_zooQuery : zooQuery.validate = .ok () ∧
    zooRules.conflict? = none ∧ ∃ result, zooQuery.renameReserved zooRules = .ok result ∧
      zooQuery.RenamedBy zooRules result ∧
      result.types.get? "QueryType" = some ⟨"QueryType", .output, [⟨"zoo",
        .union [.definition "Park", .enumeration "SymbolType"], true, false⟩], none⟩ := by
  have hset : zooQuery.validate = .ok () := by decide
  have hrules : zooRules.conflict? = none := by decide
  obtain ⟨hsucceeds, hrenamed⟩ := renameReserved_outcome hset hrules
  have hpair : ∀ {name target}, zooQuery.Renames zooRules name target →
      (name, target) ∈ zooPairs := by
    rintro name target ⟨hname, htarget⟩
    have hall : ∀ pair ∈ zooRules.replacements, zooQuery.containsName pair.1 = true →
        pair ∈ zooPairs := by decide
    exact hall (name, target) (RenameRules.mem_replacements.2 htarget) hname
  have hapart : ∀ left ∈ zooPairs, ∀ right ∈ zooPairs, left.2 = right.2 → left.1 = right.1 := by
    decide
  have hfree : ∀ pair ∈ zooPairs, zooQuery.containsName pair.2 = false := by decide
  obtain ⟨result, hresult⟩ := hsucceeds.2
    ⟨fun _ _ _ ha hb => hapart _ (hpair ha) _ (hpair hb) rfl, fun _ _ h => hfree _ (hpair h)⟩
  refine ⟨hset, hrules, result, hresult, hrenamed result hresult, ?_⟩
  exact ((hrenamed result hresult).types _ _).2 ⟨"Query", _, rfl, by decide, by decide⟩

end SchemaLayout.DefinitionSet
