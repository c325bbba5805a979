import SchemaLayout.Proofs.Reserved.Table

/-!
# Renaming twice

The table of a second renaming is built from the names that the first one left. A name that the
rules gave out is replaced again only where it is a suffixed reserved name that is also overridden,
and `RenameRules.conflict?` does not look at those.

**Results.**
* `renameReserved_idempotent_iff`: renaming the result again gives it back exactly when no reserved
  name of the set becomes, with the suffix, the source of an override.
* `renameReserved_twice_overridden`: otherwise a valid set and rules without a conflict can take
  another name with every renaming.
-/
namespace SchemaLayout.DefinitionSet

variable {set result : DefinitionSet} {rules : RenameRules}

/-- Reserved names of the set do not become, with the suffix, the source of an override. -/
def SuffixSettles (set : DefinitionSet) (rules : RenameRules) : Prop :=
  ∀ name ∈ rules.reserved, set.containsName name = true → name ∉ rules.overrides →
    name ++ rules.suffix ∉ rules.overrides

instance : Decidable (set.SuffixSettles rules) :=
  inferInstanceAs (Decidable (∀ name ∈ rules.reserved, set.containsName name = true →
    ¬ rules.overrides.contains name = true →
      ¬ rules.overrides.contains (name ++ rules.suffix) = true))

/-- A name behind the renaming is given out by the rules, or the rules do not replace it. -/
theorem given_or_kept {table : RenameTable} (htable : set.renameTable rules = .ok table)
    {old : String} (hold : set.containsName old = true) :
    rules.replacement? old = some (table.apply old) ∨
      table.apply old = old ∧ rules.replacement? old = none := by
  have hget := get?_renameTable htable old
  rw [if_pos hold] at hget
  cases hnext : rules.replacement? old with
  | none => exact Or.inr ⟨RenameTable.apply_of_get?_none (hget.trans hnext), rfl⟩
  | some target => exact Or.inl (by rw [RenameTable.apply_of_get? (hget.trans hnext)])

theorem replacement?_eq_none_of_settles (hset : set.Keyed)
    (h : set.renameReserved rules = .ok result) (hsettles : set.SuffixSettles rules) {name : String}
    (hname : result.containsName name = true) : rules.replacement? name = none := by
  obtain ⟨table, htable, hresult⟩ := renameReserved_eq_ok_iff.1 h
  obtain ⟨old, hold, rfl⟩ := (containsName_renameReserved hset hresult).1 hname
  rcases given_or_kept htable hold with hgiven | ⟨heq, hkept⟩
  · cases hnext : rules.replacement? (table.apply old) with
    | none => rfl
    | some next =>
      obtain ⟨hres, hout, htarget, hover⟩ :=
        RenameRules.override_of_replacement? (conflict?_of_renameTable htable) hgiven hnext
      exact (hsettles old hres hold hout (htarget ▸ hover)).elim
  · rw [heq, hkept]

theorem renameReserved_of_replacement?_none (hconflict : rules.conflict? = none)
    (hnone : ∀ name, set.containsName name = true → rules.replacement? name = none) :
    set.renameReserved rules = .ok set := by
  obtain ⟨table, htable⟩ := exists_renameTable set hconflict
  have hempty : table.isEmpty = true := by
    refine NameMap.isEmpty_iff_forall.2 fun name => NameMap.get?_eq_none_iff.1 ?_
    have hget := get?_renameTable htable name
    split at hget
    · rename_i hname
      exact hget.trans (hnone name hname)
    · exact hget
  refine renameReserved_eq_ok_iff.2 ⟨table, htable, ?_⟩
  rw [if_pos hempty]

/-- **Renaming twice.** For a set that is accepted, renaming the result by the same rules gives the
result again if and only if no reserved name of the set becomes, with the suffix, the source of an
override. -/
theorem renameReserved_idempotent_iff (hset : set.validate = .ok ())
    (h : set.renameReserved rules = .ok result) :
    result.renameReserved rules = .ok result ↔ set.SuffixSettles rules := by
  have hkeyed := (validate_eq_ok_iff.1 hset).toKeyed
  obtain ⟨table, htable, hresult⟩ := renameReserved_eq_ok_iff.1 h
  have hconflict := conflict?_of_renameTable htable
  constructor
  · intro hagain name hres hmem hout hover
    -- the suffixed name is in the result, and the second table would have taken it away
    have hgiven : rules.replacement? name = some (name ++ rules.suffix) := by
      rw [RenameRules.replacement?_of_not_mem hout, if_pos hres]
    have happly : table.apply name = name ++ rules.suffix := by
      refine RenameTable.apply_of_get? ?_
      rw [get?_renameTable htable, if_pos hmem, hgiven]
    have hin : result.containsName (name ++ rules.suffix) = true :=
      (containsName_renameReserved hkeyed hresult).2 ⟨name, hmem, happly⟩
    obtain ⟨target, htarget⟩ := NameMap.mem_iff_get?.1 hover
    obtain ⟨again, hagainTable, hagainResult⟩ := renameReserved_eq_ok_iff.1 hagain
    have hget : again.get? (name ++ rules.suffix) = some target := by
      rw [get?_renameTable hagainTable, if_pos hin, RenameRules.replacement?_of_override htarget]
    split at hagainResult
    · rename_i hempty
      rw [RenameTable.get?_eq_none_of_isEmpty hempty] at hget
      cases hget
    · have hresultKeyed := (valid_renameReserved (validate_eq_ok_iff.1 hset) h).toKeyed
      exact not_containsName_applyRenames hresultKeyed hagainResult hget hin
  · intro hsettles
    exact renameReserved_of_replacement?_none hconflict fun name hname =>
      replacement?_eq_none_of_settles hkeyed h hsettles hname

def lone (name : String) : DefinitionSet := ⟨.ofList [(name, ⟨name, .model, [], none⟩)], ∅⟩

/-- Rules that give a reserved name a suffix, and replace the name with the suffix as well. -/
def overlapping : RenameRules := ⟨["A"], "B", .ofList [("AB", "C")]⟩

theorem renameReserved_idempotent_default :
    (lone "Query").validate = .ok () ∧
      (lone "Query").renameReserved .default = .ok (lone "QueryType") ∧
      (lone "QueryType").renameReserved .default = .ok (lone "QueryType") :=
  have hvalid : (lone "Query").validate = .ok () := by decide
  have hfirst : (lone "Query").renameReserved .default = .ok (lone "QueryType") := by decide
  ⟨hvalid, hfirst, (renameReserved_idempotent_iff hvalid hfirst).2 (by decide)⟩

theorem renameReserved_twice_overridden : ∃ (set result again : DefinitionSet)
    (rules : RenameRules), set.validate = .ok () ∧ set.renameReserved rules = .ok result ∧
      result.renameReserved rules = .ok again ∧ again ≠ result :=
  ⟨lone "A", lone "AB", lone "C", overlapping, by decide, by decide, by decide, by decide⟩

end SchemaLayout.DefinitionSet
