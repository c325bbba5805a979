import SchemaLayout.Pass.ReservedNames
import SchemaLayout.Proofs.Schema.Renaming

/-!
# The table of reserved names

Rules give each name at most one replacement (`RenameRules.replacement?`), and the table of a set
holds the replacements of its names (`get?_renameTable`). Rules without a conflict replace nothing
that an override brings in, and no reserved name by a reserved one (`conflict?_eq_none_iff`).
-/
namespace SchemaLayout

namespace RenameRules

variable {rules : RenameRules}

/-- The new name of a name: its override, or the name with the suffix where it is reserved. -/
def replacement? (rules : RenameRules) (name : String) : Option String :=
  rules.overrides.get? name <|>
    if name ∈ rules.reserved then some (name ++ rules.suffix) else none

theorem replacement?_of_override {name target : String}
    (h : rules.overrides.get? name = some target) : rules.replacement? name = some target := by
  simp [replacement?, h]

theorem replacement?_of_not_mem {name : String} (h : name ∉ rules.overrides) :
    rules.replacement? name =
      if name ∈ rules.reserved then some (name ++ rules.suffix) else none := by
  simp [replacement?, NameMap.get?_eq_none_iff.2 h]

theorem mem_replacements {name target : String} :
    (name, target) ∈ rules.replacements ↔ rules.replacement? name = some target := by
  unfold replacements
  rw [List.mem_append, ← NameMap.get?_eq_some_iff]
  by_cases hname : name ∈ rules.overrides
  · obtain ⟨other, hother⟩ := NameMap.mem_iff_get?.1 hname
    have hcontains : rules.overrides.contains name = true := hname
    rw [replacement?_of_override hother, hother]
    simp only [List.mem_map, List.mem_filter, Bool.not_eq_true', Prod.mk.injEq]
    constructor
    · rintro (h | ⟨old, ⟨-, hold⟩, rfl, -⟩)
      · exact h
      · rw [hcontains] at hold
        cases hold
    · exact Or.inl
  · have hcontains : rules.overrides.contains name = false := Bool.eq_false_iff.2 hname
    rw [replacement?_of_not_mem hname, NameMap.get?_eq_none_iff.2 hname]
    simp only [List.mem_map, List.mem_filter, Bool.not_eq_true', Prod.mk.injEq, reduceCtorEq,
      false_or, Option.ite_none_right_eq_some, Option.some.injEq]
    constructor
    · rintro ⟨old, ⟨hmem, -⟩, rfl, htarget⟩
      exact ⟨hmem, htarget⟩
    · rintro ⟨hmem, htarget⟩
      exact ⟨name, ⟨hmem, hcontains⟩, rfl, htarget⟩

theorem overrideConflict?_eq_none_iff {source target : String} :
    rules.overrideConflict? source target = none ↔
      source ≠ target ∧ target ∉ rules.overrides ∧ target ∉ rules.reserved := by
  have hcontains : target ∈ rules.overrides ↔ rules.overrides.contains target = true := Iff.rfl
  unfold overrideConflict?
  rw [hcontains, ← List.contains_iff_mem (a := target)]
  split
  · simp_all
  · split
    · simp_all
    · split <;> simp_all

theorem reservedConflict?_eq_none_iff {name : String} : rules.reservedConflict? name = none ↔
    (name ∉ rules.overrides → rules.suffix ≠ "" ∧ name ++ rules.suffix ∉ rules.reserved) := by
  have hcontains : name ∈ rules.overrides ↔ rules.overrides.contains name = true := Iff.rfl
  unfold reservedConflict?
  rw [hcontains, ← List.contains_iff_mem (a := name ++ rules.suffix)]
  split
  · simp_all
  · split
    · simp_all
    · split <;> simp_all

theorem conflict?_eq_none_iff : rules.conflict? = none ↔
    (∀ source target, rules.overrides.get? source = some target →
      source ≠ target ∧ target ∉ rules.overrides ∧ target ∉ rules.reserved) ∧
    ∀ name ∈ rules.reserved, name ∉ rules.overrides →
      rules.suffix ≠ "" ∧ name ++ rules.suffix ∉ rules.reserved := by
  simp only [conflict?, Option.orElse_eq_orElse, Option.orElse_eq_or, Option.or_eq_none_iff,
    List.findSome?_eq_none_iff, overrideConflict?_eq_none_iff, reservedConflict?_eq_none_iff,
    Prod.forall, NameMap.get?_eq_some_iff]

/-- What rules without a conflict give is replaced again only by an override of a suffixed name. -/
theorem override_of_replacement? (h : rules.conflict? = none) {name target next : String}
    (hname : rules.replacement? name = some target)
    (htarget : rules.replacement? target = some next) :
    name ∈ rules.reserved ∧ name ∉ rules.overrides ∧ target = name ++ rules.suffix ∧
      target ∈ rules.overrides := by
  obtain ⟨hoverrides, hreserved⟩ := conflict?_eq_none_iff.1 h
  have hmem : target ∈ rules.overrides ∨ target ∈ rules.reserved := by
    by_cases hover : target ∈ rules.overrides
    · exact Or.inl hover
    · rw [replacement?_of_not_mem hover] at htarget
      split at htarget
      · rename_i hres
        exact Or.inr hres
      · cases htarget
  cases hget : rules.overrides.get? name with
  | some other =>
    rw [replacement?_of_override hget] at hname
    cases hname
    obtain ⟨-, hover, hres⟩ := hoverrides name _ hget
    exact (hmem.elim hover hres).elim
  | none =>
    have hout := NameMap.get?_eq_none_iff.1 hget
    rw [replacement?_of_not_mem hout] at hname
    split at hname
    · rename_i hres
      cases hname
      exact ⟨hres, hout, rfl, hmem.resolve_right (hreserved name hres hout).2⟩
    · cases hname

end RenameRules

namespace DefinitionSet

variable {set : DefinitionSet} {rules : RenameRules}

/-- The table of a set holds the replacements of its names. -/
theorem get?_renameTable {table : RenameTable} (h : set.renameTable rules = .ok table)
    (name : String) :
    table.get? name = if set.containsName name then rules.replacement? name else none := by
  unfold renameTable at h
  split at h
  · cases h
  cases h
  refine NameMap.get?_ofList_of_mem_iff
    (f := fun name => if set.containsName name then rules.replacement? name else none)
    (fun name target => ?_) name
  rw [List.mem_filter, RenameRules.mem_replacements]
  split
  · rename_i hname
    simp [hname]
  · rename_i hname
    simp [hname]

theorem conflict?_of_renameTable {table : RenameTable} (h : set.renameTable rules = .ok table) :
    rules.conflict? = none := by
  unfold renameTable at h
  split at h
  · cases h
  · assumption

theorem exists_renameTable (set : DefinitionSet) (h : rules.conflict? = none) :
    ∃ table, set.renameTable rules = .ok table := by
  unfold renameTable
  rw [h]
  exact ⟨_, rfl⟩

/-- A successful renaming is the table of the set, applied when it is not empty. -/
theorem renameReserved_eq_ok_iff {result : DefinitionSet} :
    set.renameReserved rules = .ok result ↔ ∃ table, set.renameTable rules = .ok table ∧
      (if table.isEmpty then .ok set else set.applyRenames table) = .ok result := by
  unfold renameReserved
  cases set.renameTable rules with
  | error cause =>
    constructor
    · intro h; cases h
    · rintro ⟨table, h, -⟩; cases h
  | ok table =>
    constructor
    · intro h; exact ⟨table, rfl, h⟩
    · rintro ⟨table', h, hresult⟩; cases h; exact hresult

/-- The names behind a renaming are the replaced names in front of it. -/
theorem containsName_renameReserved {result : DefinitionSet} {table : RenameTable}
    (hset : set.Keyed)
    (h : (if table.isEmpty then .ok set else set.applyRenames table) = .ok result) {name : String} :
    result.containsName name = true ↔
      ∃ old, set.containsName old = true ∧ table.apply old = name := by
  split at h
  · rename_i hempty
    cases h
    simp only [RenameTable.apply_of_isEmpty hempty, exists_eq_right]
  · exact containsName_applyRenames hset h

theorem Keyed.renameReserved {result : DefinitionSet} (hset : set.Keyed)
    (h : set.renameReserved rules = .ok result) : result.Keyed := by
  obtain ⟨table, -, hresult⟩ := renameReserved_eq_ok_iff.1 h
  split at hresult
  · cases hresult
    exact hset
  · exact hset.applyRenames hresult

/-- Renaming reserved names gives a valid set for a valid one. -/
theorem valid_renameReserved {result : DefinitionSet} (hset : set.Valid)
    (h : set.renameReserved rules = .ok result) : result.Valid := by
  obtain ⟨table, -, hresult⟩ := renameReserved_eq_ok_iff.1 h
  split at hresult
  · cases hresult
    exact hset
  · exact valid_applyRenames hset hresult

end DefinitionSet

end SchemaLayout
