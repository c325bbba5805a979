import SchemaLayout.Proofs.Folding.Validity

/-!
# What folding leaves

`OneSurvivor` relates the names that the table turns into one name. In every scope this is the
largest congruence (`coarsest_oneSurvivor`). Shapes compare leaves by class and drop repeats, and
renaming puts the smallest name of its class in the place of each leaf and drops repeats, so related
definitions have the same fields after renaming (`renamed_fields_eq`): what a definition folds into
is that definition but for its name (`get?_foldBy_apply`).

* `foldDuplicates_survivors`: folding succeeds, its result is valid, and it holds exactly the
  definitions that are not replaced, with their references turned to survivors.
-/
namespace SchemaLayout.Folding

variable {set : DefinitionSet} {scope : FoldScope} {table : RenameTable}

def OneSurvivor (set : DefinitionSet) (table : RenameTable) (a b : String) : Prop :=
  a ∈ set.types ∧ b ∈ set.types ∧ table.apply a = table.apply b

/-! ## The table relates what the largest congruence does -/

theorem FieldsAgree.refl (R : String → String → Prop) (field : Field) : FieldsAgree R field field :=
  ⟨rfl, rfl, rfl, rfl⟩

theorem coarsest_of_none : Coarsest set .none (OneSurvivor set ∅) where
  defined h := ⟨h.1, h.2.1⟩
  refl h := ⟨h, h, rfl⟩
  symm h := ⟨h.2.1, h.1, h.2.2.symm⟩
  trans h h' := ⟨h.1, h'.2.1, h.2.2.trans h'.2.2⟩
  kind h ha hb := by
    cases h.2.2
    cases ha.symm.trans hb
    rfl
  inScope h _ _ hne := absurd h.2.2 hne
  fields h ha hb := by
    cases h.2.2
    cases ha.symm.trans hb
    exact List.forall₂_same.2 fun field _ => FieldsAgree.refl _ field
  largest {S} hS {a b} hab := by
    obtain ⟨ha, hb⟩ := hS.defined hab
    obtain ⟨d, hd⟩ := NameMap.mem_iff_get?.1 ha
    obtain ⟨e, he⟩ := NameMap.mem_iff_get?.1 hb
    refine ⟨ha, hb, by_contra fun hne => ?_⟩
    exact Bool.false_ne_true (hS.inScope hab hd he hne).1

/-- Names have one survivor exactly when the largest congruence relates them. -/
theorem coarsest_oneSurvivor (hset : Foldable set) (htable : set.foldTable scope = .ok table) :
    Coarsest set scope (OneSurvivor set table) := by
  by_cases hscope : scope = .none
  · subst hscope
    cases htable
    exact coarsest_of_none
  obtain ⟨found, hfound, hchar⟩ := get?_foldTable hset hscope
  cases hfound.symm.trans htable
  have hR : Congruence set scope (SameClass set (classes scope set.types.values)) :=
    congruence_classes hset scope
  have hclasses : OneSurvivor set table = SameClass set (classes scope set.types.values) := by
    funext a b
    refine propext ⟨fun ⟨ha, hb, heq⟩ => ?_, fun hab => ?_⟩
    · have hclass := (apply_foldTable hset hchar ha).1
      have hclass' := (apply_foldTable hset hchar hb).1
      rw [heq] at hclass
      exact hR.trans hclass (hR.symm hclass')
    · obtain ⟨ha, hb⟩ := hR.defined hab
      obtain ⟨hclass, hleast⟩ := apply_foldTable hset hchar ha
      obtain ⟨hclass', hleast'⟩ := apply_foldTable hset hchar hb
      have hle : table.apply a ≤ table.apply b := hleast _ (hR.trans hab hclass')
      have hge : table.apply b ≤ table.apply a := hleast' _ (hR.trans (hR.symm hab) hclass)
      exact ⟨ha, hb, String.le_antisymm hle hge⟩
  rw [hclasses]
  exact coarsest_classes hset

theorem exists_foldTable (hset : Foldable set) (scope : FoldScope) :
    ∃ table, set.foldTable scope = .ok table := by
  by_cases hscope : scope = .none
  · exact ⟨∅, if_pos hscope⟩
  · obtain ⟨table, htable, -⟩ := get?_foldTable hset hscope
    exact ⟨table, htable⟩

theorem foldTable_lt (hset : Foldable set) (htable : set.foldTable scope = .ok table)
    {name target : String} (hget : table.get? name = some target) : target < name := by
  by_cases hscope : scope = .none
  · subst hscope
    cases htable
    cases hget
  obtain ⟨found, hfound, hchar⟩ := get?_foldTable hset hscope
  cases hfound.symm.trans htable
  obtain ⟨hne, hclass, hleast⟩ := (hchar name target).1 hget
  have hle : target ≤ name := hleast name ((congruence_classes hset scope).refl hclass.1)
  exact String.not_le.1 fun hge => hne (String.le_antisymm hge hle)

theorem oneSurvivor_apply (hset : Foldable set) (htable : set.foldTable scope = .ok table)
    {name : String} (hname : name ∈ set.types) : OneSurvivor set table name (table.apply name) := by
  obtain ⟨hfree, hmem⟩ := mem_foldBy.1 (apply_mem_foldBy hset htable hname)
  exact ⟨hname, hmem, (RenameTable.apply_of_get?_none hfree).symm⟩

/-! ## Fields after renaming -/

/-- Leaves of one class are one leaf after renaming. -/
theorem coarser_renamedLeaf (hset : Foldable set)
    (hR : Congruence set scope (OneSurvivor set table)) {a b : String} {d e : TypeDefinition}
    (ha : set.types.get? a = some d) (hb : set.types.get? b = some e) :
    Coarser (leafClass (OneSurvivor set table)) (·.renamedLeaf table) d e := by
  intro x y hx hy hxy
  rcases (sees_leafClass _).other x y hxy with rfl | ⟨m, n, rfl, rfl⟩
  · rfl
  · have hn : n ∈ set.types := by
      rcases List.mem_append.1 hy with hy | hy
      · exact hset.resolved ha hy
      · exact hset.resolved hb hy
    -- `n` is in its own class, so in the class of `m`
    have hself : n ∈ {other | OneSurvivor set table n other} := hR.refl hn
    rw [← ((sees_leafClass _).definition m n).1 hxy] at hself
    exact congrArg TypeRef.definition hself.2.2

theorem renamed_fields_eq (hset : set.Valid) (htable : set.foldTable scope = .ok table)
    {a b : String} (hab : OneSurvivor set table a b) {d e : TypeDefinition}
    (ha : set.types.get? a = some d) (hb : set.types.get? b = some e) :
    (d.renamed table).fields = (e.renamed table).fields := by
  classical
  cases hempty : table.isEmpty with
  | true =>
    -- nothing is replaced, so both are one definition
    have heq := hab.2.2
    rw [RenameTable.apply_of_isEmpty hempty, RenameTable.apply_of_isEmpty hempty] at heq
    subst heq
    cases ha.symm.trans hb
    rfl
  | false =>
    have hR := (coarsest_oneSurvivor hset.foldable htable).toCongruence
    have hcoarser := coarser_renamedLeaf hset.foldable hR ha hb
    have hleaf : ∀ {c : TypeDefinition} {name : String}, set.types.get? name = some c →
        ∀ field ∈ c.fields, ∀ x ∈ field.type.members.map (·.renamedLeaf table),
          x.isUnion = false := by
      intro c name hget field hfield x hx
      obtain ⟨leaf, hleaf, rfl⟩ := List.mem_map.1 hx
      exact TypeRef.isUnion_renamedLeaf
        (TypeRef.isUnion_of_mem_members ((hset.wellFormed hget).normal field hfield) hleaf)
    have hfields : List.Forall₂ (fun f g : Field => f.renamed table = g.renamed table)
        d.fields e.fields := by
      refine forall₂_of_mem (fun f hf g hg hfg => ?_) (hR.fields hab ha hb)
      have htype : f.type.renamed table = g.type.renamed table := by
        rw [TypeRef.renamed_eq_ofMembers hempty, TypeRef.renamed_eq_ofMembers hempty]
        exact TypeRef.ofMembers_congr (hleaf ha f hf) (hleaf hb g hg)
          (hcoarser.eraseDups_eq hf hg hfg.leaves)
      simp only [Field.renamed, hfg.name, hfg.nullable, hfg.isList, htype]
    have hmap := List.forall₂_map_left_iff.2 (List.forall₂_map_right_iff.2 hfields)
    exact List.forall₂_eq_eq_eq ▸ hmap

/-- A definition survives, under the name of its survivor, with its kind and its renamed fields. -/
theorem get?_foldBy_apply (hset : set.Valid) (htable : set.foldTable scope = .ok table)
    {name : String} {d : TypeDefinition} (hget : set.types.get? name = some d) :
    ∃ e, (set.foldBy table).types.get? (table.apply name) = some e ∧ e.kind = d.kind ∧
      e.fields = (d.renamed table).fields := by
  have hone := oneSurvivor_apply hset.foldable htable (NameMap.mem_of_get? hget)
  obtain ⟨e, he⟩ := NameMap.mem_iff_get?.1
    (apply_mem_foldBy hset.foldable htable (NameMap.mem_of_get? hget))
  obtain ⟨-, old, hold, rfl⟩ := get?_foldBy.1 he
  have hR := (coarsest_oneSurvivor hset.foldable htable).toCongruence
  exact ⟨_, he, (hR.kind hone hget hold).symm, (renamed_fields_eq hset htable hone hget hold).symm⟩

/-! ## The folded set -/

/-- **Folding.** Every accepted set can be folded. The result is accepted, has the enums of the set
and, of its definitions, those that the table does not replace, with every reference put through the
table. What replaces a name is a smaller name that stays, and after renaming both definitions have
the same fields. -/
theorem foldDuplicates_survivors (set : DefinitionSet) (scope : FoldScope)
    (hset : set.validate = .ok ()) :
    ∃ result table, set.foldDuplicates scope = .ok (result, table) ∧ result.validate = .ok () ∧
      result.enums = set.enums ∧
      (∀ name, name ∈ result.types ↔ name ∈ set.types ∧ table.get? name = none) ∧
      (∀ name target, table.get? name = some target →
        name ∈ set.types ∧ target ∈ result.types ∧ target < name ∧ table.get? target = none) ∧
      (∀ name definition, result.types.get? name = some definition →
        ∃ old, set.types.get? name = some old ∧
          definition = { old with fields := old.fields.map (·.renamed table) }) ∧
      ∀ name target duplicate survivor, table.get? name = some target →
        set.types.get? name = some duplicate → set.types.get? target = some survivor →
          duplicate.kind = survivor.kind ∧
            duplicate.fields.map (·.renamed table) = survivor.fields.map (·.renamed table) := by
  have hvalid := DefinitionSet.validate_eq_ok_iff.1 hset
  obtain ⟨table, htable⟩ := exists_foldTable hvalid.foldable scope
  have hR := (coarsest_oneSurvivor hvalid.foldable htable).toCongruence
  refine ⟨set.foldBy table, table, Fallible.map_eq_ok.2 ⟨table, htable, rfl⟩,
    DefinitionSet.validate_eq_ok_iff.2 (valid_foldBy hvalid htable), enums_foldBy, ?_, ?_, ?_, ?_⟩
  · intro name
    rw [mem_foldBy, and_comm]
  · intro name target hget
    obtain ⟨hname, htarget, hfree⟩ := foldTable_target hvalid.foldable htable hget
    exact ⟨hname, mem_foldBy.2 ⟨hfree, htarget⟩, foldTable_lt hvalid.foldable htable hget, hfree⟩
  · intro name definition hget
    obtain ⟨-, old, hold, rfl⟩ := get?_foldBy.1 hget
    exact ⟨old, hold, rfl⟩
  · intro name target duplicate survivor hget hduplicate hsurvivor
    have hone := oneSurvivor_apply hvalid.foldable htable (NameMap.mem_of_get? hduplicate)
    rw [RenameTable.apply_of_get? hget] at hone
    exact ⟨hR.kind hone hduplicate hsurvivor,
      renamed_fields_eq hvalid htable hone hduplicate hsurvivor⟩

/-- What is left of the pair and of the one that refers to it. -/
def selfReference : DefinitionSet where
  types := .ofList [("A", ⟨"A", .input, [⟨"next", .definition "A", false, false⟩], none⟩)]
  enums := ∅

theorem foldDuplicates_survivors_mutualPair : mutualPair.validate = .ok () ∧
    ∃ table, mutualPair.foldDuplicates .input = .ok (selfReference, table) ∧
      table.toList = [("B", "A"), ("C", "A")] ∧ selfReference.validate = .ok () ∧
      (∀ name, name ∈ selfReference.types ↔
        name ∈ mutualPair.types ∧ table.get? name = none) ∧
      ∀ name target, table.get? name = some target → target < name := by
  have hset : mutualPair.validate = .ok () := by decide
  have hfold : mutualPair.foldDuplicates .input =
      .ok (selfReference, .ofList [("B", "A"), ("C", "A")]) := by decide
  obtain ⟨result, table, hok, hvalid, -, hnames, htargets, -⟩ :=
    foldDuplicates_survivors mutualPair .input hset
  cases hfold.symm.trans hok
  exact ⟨hset, _, hfold, by decide, hvalid, hnames, fun name target hget =>
    (htargets name target hget).2.2.1⟩

end SchemaLayout.Folding
