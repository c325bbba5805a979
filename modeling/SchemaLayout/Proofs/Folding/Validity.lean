import SchemaLayout.Proofs.Folding.Coarsest
import SchemaLayout.Proofs.Schema.Substitution

/-!
# Folding keeps sets valid

A name that the table replaces goes, and the name it is replaced by stays (`foldTable_target`), so
references turned to the survivors resolve.
-/
namespace SchemaLayout.Folding

variable {set : DefinitionSet} {scope : FoldScope} {table : RenameTable}

/-- A replaced name is a definition, and so is what replaces it, which is not replaced itself. -/
theorem foldTable_target (hset : Foldable set) (htable : set.foldTable scope = .ok table)
    {name target : String} (hget : table.get? name = some target) :
    name ∈ set.types ∧ target ∈ set.types ∧ table.get? target = none := by
  by_cases hscope : scope = .none
  · unfold DefinitionSet.foldTable at htable
    rw [if_pos hscope] at htable
    cases htable
    cases hget
  obtain ⟨found, hfound, hchar⟩ := get?_foldTable hset hscope
  cases hfound.symm.trans htable
  obtain ⟨-, hclass, hleast⟩ := (hchar name target).1 hget
  refine ⟨hclass.1, hclass.2.1, ?_⟩
  cases hnext : table.get? target with
  | none => rfl
  | some next =>
    -- both names are the smallest of one class
    obtain ⟨hne, hclass', hleast'⟩ := (hchar target next).1 hnext
    have hR := congruence_classes hset scope
    have hle : target ≤ next := hleast next (hR.trans hclass hclass')
    have hge : next ≤ target := hleast' target (hR.refl hclass.2.1)
    exact absurd (String.le_antisymm hle hge) hne

theorem get?_foldBy {name : String} {definition : TypeDefinition} :
    (set.foldBy table).types.get? name = some definition ↔ table.get? name = none ∧
      ∃ old, set.types.get? name = some old ∧ old.renamed table = definition := by
  unfold DefinitionSet.foldBy
  rw [DefinitionSet.get?_rewriteReferences, Option.map_eq_some_iff, NameMap.get?_filter]
  simp only [Option.filter_eq_some_iff, Option.isNone_iff_eq_none]
  constructor
  · rintro ⟨old, ⟨hget, hfree⟩, hdef⟩
    exact ⟨hfree, old, hget, hdef⟩
  · rintro ⟨hfree, old, hget, hdef⟩
    exact ⟨old, ⟨hget, hfree⟩, hdef⟩

theorem enums_foldBy : (set.foldBy table).enums = set.enums :=
  DefinitionSet.enums_rewriteReferences ..

theorem mem_foldBy {name : String} :
    name ∈ (set.foldBy table).types ↔ table.get? name = none ∧ name ∈ set.types := by
  simp only [NameMap.mem_iff_get?, get?_foldBy]
  constructor
  · rintro ⟨_, hfree, old, hget, -⟩
    exact ⟨hfree, old, hget⟩
  · rintro ⟨hfree, old, hget⟩
    exact ⟨_, hfree, old, hget, rfl⟩

theorem apply_mem_foldBy (hset : Foldable set) (htable : set.foldTable scope = .ok table)
    {name : String} (hname : name ∈ set.types) : table.apply name ∈ (set.foldBy table).types := by
  rw [mem_foldBy]
  cases hnext : table.get? name with
  | none =>
    rw [RenameTable.apply_of_get?_none hnext]
    exact ⟨hnext, hname⟩
  | some target =>
    rw [RenameTable.apply_of_get? hnext]
    obtain ⟨-, htarget, hfree⟩ := foldTable_target hset htable hnext
    exact ⟨hfree, htarget⟩

theorem apply_of_mem_enums (hset : Foldable set) (htable : set.foldTable scope = .ok table)
    {name : String} (hname : name ∈ set.enums) : table.apply name = name := by
  cases hnext : table.get? name with
  | none => exact RenameTable.apply_of_get?_none hnext
  | some target =>
    have htype : name ∈ set.types := (foldTable_target hset htable hnext).1
    exact absurd hname (hset.disjoint htype)

theorem keyed_foldBy (hset : set.Keyed) (table : RenameTable) : (set.foldBy table).Keyed where
  types hget := by
    obtain ⟨-, old, hold, rfl⟩ := get?_foldBy.1 hget
    rw [TypeDefinition.renamed_name]
    exact hset.types hold
  enums hget := by
    rw [enums_foldBy] at hget
    exact hset.enums hget
  disjoint hmem := by
    rw [enums_foldBy]
    exact hset.disjoint (mem_foldBy.1 hmem).2

/-- Folding by the table of a valid set gives a valid set. -/
theorem valid_foldBy (hset : set.Valid) (htable : set.foldTable scope = .ok table) :
    (set.foldBy table).Valid where
  toKeyed := keyed_foldBy hset.toKeyed table
  wellFormed hget := by
    obtain ⟨-, old, hold, rfl⟩ := get?_foldBy.1 hget
    exact (hset.wellFormed hold).renamed table
  resolved hget leaf hleaf := by
    obtain ⟨-, old, hold, rfl⟩ := get?_foldBy.1 hget
    obtain ⟨x, hx, rfl⟩ := (TypeDefinition.mem_leaves_renamed (hset.wellFormed hold)).1 hleaf
    refine DefinitionSet.resolves_renamedLeaf (hset.resolved hold x hx)
      (fun target htarget => ?_) fun target htarget => ?_
    · exact apply_mem_foldBy hset.foldable htable htarget
    · rw [apply_of_mem_enums hset.foldable htable htarget, enums_foldBy]
      exact htarget

end SchemaLayout.Folding
