import SchemaLayout.Proofs.Folding.Survivors

/-!
# Folding once is enough

A congruence of the folded set, taken back along the survivors, is a congruence of the set itself
(`Congruence.pullback`): what a definition folds into has its fields up to the table, so leaves that
agree among survivors agreed before. The largest congruence of the set therefore relates whatever
one of the folded set does, and survivors that it relates are one (`eq_of_congruence_foldBy`).

* `foldDuplicates_settled`: a second folding finds nothing to do, and no two definitions in the
  scope that are left have one kind and the same fields.
-/
namespace SchemaLayout.Folding

variable {set : DefinitionSet} {scope : FoldScope} {table : RenameTable}

/-! ## Congruences of the folded set -/

/-- The names whose survivors are related. -/
def Pullback (set : DefinitionSet) (table : RenameTable) (S : String → String → Prop)
    (a b : String) : Prop :=
  a ∈ set.types ∧ b ∈ set.types ∧ S (table.apply a) (table.apply b)

section Pullback

variable (hset : set.Valid) (htable : set.foldTable scope = .ok table)
include hset htable

/-- Leaves whose renamed forms agree up to a relation of survivors agree up to its pullback. -/
theorem coarser_pullback (S : String → String → Prop) {a b : String} {d e : TypeDefinition}
    (ha : set.types.get? a = some d) (hb : set.types.get? b = some e) :
    Coarser (fun leaf => leafClass S (leaf.renamedLeaf table))
      (leafClass (Pullback set table S)) d e := by
  have hresolved : ∀ leaf ∈ d.leaves ++ e.leaves, set.resolves leaf = true := by
    intro leaf hleaf
    rcases List.mem_append.1 hleaf with hleaf | hleaf
    · exact hset.resolved ha leaf hleaf
    · exact hset.resolved hb leaf hleaf
  intro x y hx hy hxy
  change leafClass S (x.renamedLeaf table) = leafClass S (y.renamedLeaf table) at hxy
  cases x with
  | scalar kind =>
    cases y with
    | scalar other => cases hxy; rfl
    | _ => cases hxy
  | union members =>
    cases y with
    | union others => cases hxy; rfl
    | _ => cases hxy
  | enumeration m =>
    cases y with
    | enumeration n =>
      have happly : table.apply m = table.apply n := LeafClass.enumeration.inj hxy
      rw [apply_of_mem_enums hset.foldable htable (hresolved _ hx),
        apply_of_mem_enums hset.foldable htable (hresolved _ hy)] at happly
      rw [happly]
    | _ => cases hxy
  | definition m =>
    cases y with
    | definition n =>
      have hm : m ∈ set.types := hresolved _ hx
      have hn : n ∈ set.types := hresolved _ hy
      have hclass : {other | S (table.apply m) other} = {other | S (table.apply n) other} :=
        LeafClass.definition.inj hxy
      refine ((sees_leafClass _).definition m n).2 (Set.ext fun other => ?_)
      have hother : S (table.apply m) (table.apply other) ↔ S (table.apply n) (table.apply other) :=
        Set.ext_iff.1 hclass (table.apply other)
      simp only [Set.mem_ofPred_eq, Pullback, hm, hn, true_and, hother]
    | _ => cases hxy

/-- A congruence of the folded set is one of the set, taken back along the survivors, when its
scope holds the one that was folded in. -/
theorem Congruence.pullback {wide : FoldScope} {S : String → String → Prop}
    (hwide : ∀ kind, scope.includes kind = true → wide.includes kind = true)
    (hS : Congruence (set.foldBy table) wide S) :
    Congruence set wide (Pullback set table S) where
  defined h := ⟨h.1, h.2.1⟩
  refl h := ⟨h, h, hS.refl (apply_mem_foldBy hset.foldable htable h)⟩
  symm h := ⟨h.2.1, h.1, hS.symm h.2.2⟩
  trans h h' := ⟨h.1, h'.2.1, hS.trans h.2.2 h'.2.2⟩
  kind h ha hb := by
    obtain ⟨d, hd, hdkind, -⟩ := get?_foldBy_apply hset htable ha
    obtain ⟨e, he, hekind, -⟩ := get?_foldBy_apply hset htable hb
    rw [← hdkind, ← hekind]
    exact hS.kind h.2.2 hd he
  inScope {a b _ _} h ha hb hne := by
    by_cases hsame : table.apply a = table.apply b
    · have hR := (coarsest_oneSurvivor hset.foldable htable).toCongruence
      exact (hR.inScope ⟨h.1, h.2.1, hsame⟩ ha hb hne).imp (hwide _) (hwide _)
    · obtain ⟨d, hd, hdkind, -⟩ := get?_foldBy_apply hset htable ha
      obtain ⟨e, he, hekind, -⟩ := get?_foldBy_apply hset htable hb
      rw [← hdkind, ← hekind]
      exact hS.inScope h.2.2 hd he hsame
  fields h ha hb := by
    classical
    obtain ⟨d, hd, -, hdfields⟩ := get?_foldBy_apply hset htable ha
    obtain ⟨e, he, -, hefields⟩ := get?_foldBy_apply hset htable hb
    have hfields := hS.fields h.2.2 hd he
    rw [hdfields, hefields] at hfields
    have hagree := List.forall₂_map_right_iff.1 (List.forall₂_map_left_iff.1 hfields)
    refine forall₂_of_mem (fun f hf g hg hfg => ⟨hfg.name, hfg.nullable, hfg.isList, ?_⟩) hagree
    refine (coarser_pullback hset htable S ha hb).eraseDups_eq hf hg ?_
    have hleaves := hfg.leaves
    simp only [classLeaves, Field.renamed] at hleaves
    rwa [TypeRef.eraseDups_map_members_renamed _ ((hset.wellFormed ha).normal f hf),
      TypeRef.eraseDups_map_members_renamed _ ((hset.wellFormed hb).normal g hg)] at hleaves

theorem eq_of_congruence_foldBy {S : String → String → Prop}
    (hS : Congruence (set.foldBy table) scope S) {a b : String} (hab : S a b) : a = b := by
  obtain ⟨ha, hb⟩ := hS.defined hab
  obtain ⟨hafree, hamem⟩ := mem_foldBy.1 ha
  obtain ⟨hbfree, hbmem⟩ := mem_foldBy.1 hb
  have happly : table.apply a = a := RenameTable.apply_of_get?_none hafree
  have happly' : table.apply b = b := RenameTable.apply_of_get?_none hbfree
  have hpull : Pullback set table S a b := ⟨hamem, hbmem, by rwa [happly, happly']⟩
  have hcongruence := hS.pullback hset htable fun _ hkind => hkind
  have hone := (coarsest_oneSurvivor hset.foldable htable).largest hcongruence hpull
  rw [← happly, ← happly', hone.2.2]

end Pullback

/-! ## Nothing left to fold -/

/-- Definitions that only their names tell apart, if anything does. -/
def Identical (set : DefinitionSet) (scope : FoldScope) (a b : String) : Prop :=
  ∃ d e, set.types.get? a = some d ∧ set.types.get? b = some e ∧
    (a = b ∨ scope.includes d.kind = true ∧ d.kind = e.kind ∧ d.fields = e.fields)

theorem congruence_identical (set : DefinitionSet) (scope : FoldScope) :
    Congruence set scope (Identical set scope) where
  defined := by
    rintro a b ⟨d, e, hd, he, -⟩
    exact ⟨NameMap.mem_of_get? hd, NameMap.mem_of_get? he⟩
  refl h := by
    obtain ⟨d, hd⟩ := NameMap.mem_iff_get?.1 h
    exact ⟨d, d, hd, hd, Or.inl rfl⟩
  symm := by
    rintro a b ⟨d, e, hd, he, rfl | ⟨hscope, hkind, hfields⟩⟩
    · exact ⟨e, d, he, hd, Or.inl rfl⟩
    · exact ⟨e, d, he, hd, Or.inr ⟨hkind ▸ hscope, hkind.symm, hfields.symm⟩⟩
  trans := by
    rintro a b c ⟨d, e, hd, he, hde⟩ ⟨e', f, he', hf, hef⟩
    cases he.symm.trans he'
    rcases hde with rfl | ⟨hscope, hkind, hfields⟩
    · cases hd.symm.trans he
      exact ⟨d, f, hd, hf, hef⟩
    · rcases hef with rfl | ⟨-, hkind', hfields'⟩
      · cases he.symm.trans hf
        exact ⟨d, e, hd, he, Or.inr ⟨hscope, hkind, hfields⟩⟩
      · exact ⟨d, f, hd, hf, Or.inr ⟨hscope, hkind.trans hkind', hfields.trans hfields'⟩⟩
  kind := by
    rintro a b d e ⟨d', e', hd', he', hde⟩ hd he
    cases hd.symm.trans hd'
    cases he.symm.trans he'
    rcases hde with rfl | ⟨-, hkind, -⟩
    · cases hd.symm.trans he
      rfl
    · exact hkind
  inScope := by
    rintro a b d e ⟨d', e', hd', he', hde⟩ hd he hne
    cases hd.symm.trans hd'
    cases he.symm.trans he'
    obtain ⟨hscope, hkind, -⟩ := hde.resolve_left hne
    exact ⟨hscope, hkind ▸ hscope⟩
  fields := by
    rintro a b d e ⟨d', e', hd', he', hde⟩ hd he
    cases hd.symm.trans hd'
    cases he.symm.trans he'
    have hfields : d.fields = e.fields := by
      rcases hde with rfl | ⟨-, -, hfields⟩
      · cases hd.symm.trans he
        rfl
      · exact hfields
    rw [hfields]
    exact List.forall₂_same.2 fun field _ => FieldsAgree.refl _ field

theorem foldBy_empty (set : DefinitionSet) : set.foldBy ∅ = set := by
  have htypes : (set.foldBy ∅).types = set.types := by
    refine NameMap.ext_get? fun name => Option.ext fun d => ?_
    rw [get?_foldBy]
    constructor
    · rintro ⟨-, old, hget, rfl⟩
      rwa [TypeDefinition.renamed_of_isEmpty rfl]
    · intro hget
      exact ⟨rfl, d, hget, TypeDefinition.renamed_of_isEmpty rfl d⟩
  have henums : (set.foldBy ∅).enums = set.enums := enums_foldBy
  generalize set.foldBy ∅ = folded at htypes henums
  cases folded
  cases htypes
  cases henums
  rfl

theorem foldTable_foldBy (hset : set.Valid) (htable : set.foldTable scope = .ok table) :
    (set.foldBy table).foldTable scope = .ok ∅ := by
  have hfolded := (valid_foldBy hset htable).foldable
  obtain ⟨next, hnext⟩ := exists_foldTable hfolded scope
  have hnone : ∀ name, next.get? name = none := by
    intro name
    cases hget : next.get? name with
    | none => rfl
    | some target =>
      have hname := (foldTable_target hfolded hnext hget).1
      have hone := oneSurvivor_apply hfolded hnext hname
      have heq := eq_of_congruence_foldBy hset htable
        (coarsest_oneSurvivor hfolded hnext).toCongruence hone
      rw [RenameTable.apply_of_get? hget] at heq
      exact absurd (heq ▸ foldTable_lt hfolded hnext hget) (String.lt_irrefl _)
  have hempty : next.entries = ∅ := NameMap.ext_get? hnone
  rw [hnext]
  exact congrArg (fun entries => Except.ok (RenameTable.mk entries)) hempty

/-- **Folding once is enough.** Every accepted set can be folded; in the result there is nothing to
fold, so folding it again changes nothing, and definitions in the scope with one kind and the same
fields are one. -/
theorem foldDuplicates_settled (set : DefinitionSet) (scope : FoldScope)
    (hset : set.validate = .ok ()) :
    ∃ result table, set.foldDuplicates scope = .ok (result, table) ∧
      result.foldTable scope = .ok ∅ ∧ result.foldDuplicates scope = .ok (result, ∅) ∧
      ∀ a b d e, result.types.get? a = some d → result.types.get? b = some e →
        scope.includes d.kind = true → d.kind = e.kind → d.fields = e.fields → a = b := by
  have hvalid := DefinitionSet.validate_eq_ok_iff.1 hset
  obtain ⟨table, htable⟩ := exists_foldTable hvalid.foldable scope
  have hempty := foldTable_foldBy hvalid htable
  refine ⟨set.foldBy table, table, Fallible.map_eq_ok.2 ⟨table, htable, rfl⟩, hempty,
    Fallible.map_eq_ok.2 ⟨∅, hempty, by rw [foldBy_empty]⟩, ?_⟩
  intro a b d e hd he hscope hkind hfields
  exact eq_of_congruence_foldBy hvalid htable (congruence_identical _ scope)
    ⟨d, e, hd, he, Or.inr ⟨hscope, hkind, hfields⟩⟩

theorem foldDuplicates_settled_mutualPair : mutualPair.validate = .ok () ∧
    ∃ table, mutualPair.foldDuplicates .input = .ok (selfReference, table) ∧
      table.toList = [("B", "A"), ("C", "A")] ∧ selfReference.types.keys = ["A"] ∧
      selfReference.foldTable .input = .ok ∅ ∧
      selfReference.foldDuplicates .input = .ok (selfReference, ∅) := by
  have hset : mutualPair.validate = .ok () := by decide
  have hfold : mutualPair.foldDuplicates .input =
      .ok (selfReference, .ofList [("B", "A"), ("C", "A")]) := by decide
  obtain ⟨result, table, hok, hempty, hagain, -⟩ := foldDuplicates_settled mutualPair .input hset
  cases hfold.symm.trans hok
  exact ⟨hset, _, hfold, by decide, by decide, hempty, hagain⟩

end SchemaLayout.Folding
