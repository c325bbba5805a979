import SchemaLayout.Proofs.Folding.Fixpoint

/-!
# Folding in two steps

A set that was folded in one scope and is folded again in a wider one. A congruence that holds the
survivors of the first step is carried to the folded set (`Congruence.image`), and one of the folded
set is taken back (`Congruence.pullback`), so the largest ones correspond: names have one survivor
in the wider scope exactly when their survivors have (`oneSurvivor_foldBy_iff`). Smallest names of
classes within classes are smallest names (`apply_foldBy`), and two normal forms in a row are one
(`TypeRef.renamed_trans`).

* `foldDuplicates_widening`: folding in any scope and then in all kinds gives what folding in all
  kinds gives at once.
-/
namespace SchemaLayout.Folding

variable {set : DefinitionSet} {narrow wide : FoldScope} {first second both : RenameTable}

/-! ## Tables as maps -/

theorem apply_le (hset : Foldable set) (htable : set.foldTable narrow = .ok first) (name : String) :
    first.apply name ≤ name := by
  refine String.not_lt.1 fun hlt => ?_
  cases hget : first.get? name with
  | none =>
    rw [RenameTable.apply_of_get?_none hget] at hlt
    exact String.lt_irrefl name hlt
  | some target =>
    rw [RenameTable.apply_of_get? hget] at hlt
    exact String.lt_asymm (foldTable_lt hset htable hget) hlt

theorem get?_eq_none_iff_apply (hset : Foldable set) (htable : set.foldTable narrow = .ok first)
    {name : String} : first.get? name = none ↔ first.apply name = name := by
  refine ⟨RenameTable.apply_of_get?_none, fun hfixed => ?_⟩
  cases hget : first.get? name with
  | none => rfl
  | some target =>
    have hlt := foldTable_lt hset htable hget
    rw [RenameTable.apply_of_get? hget] at hfixed
    exact absurd (hfixed ▸ hlt) (String.lt_irrefl _)

theorem isEmpty_iff_types (hset : Foldable set) (htable : set.foldTable narrow = .ok first) :
    first.isEmpty = true ↔ ∀ name, name ∈ set.types → first.get? name = none := by
  rw [RenameTable.isEmpty_iff]
  refine ⟨fun h name _ => h name, fun h name => ?_⟩
  cases hget : first.get? name with
  | none => rfl
  | some target =>
    have hmem := (foldTable_target hset htable hget).1
    exact hget.symm.trans (h name hmem)

theorem apply_le_of_oneSurvivor (hset : Foldable set)
    (htable : set.foldTable narrow = .ok first) {a b : String} (h : OneSurvivor set first a b) :
    first.apply a ≤ b := by
  rw [h.2.2]
  exact apply_le hset htable b

/-! ## Congruences in a wider scope -/

theorem Congruence.widen {R : String → String → Prop}
    (hwide : ∀ kind, narrow.includes kind = true → wide.includes kind = true)
    (hR : Congruence set narrow R) : Congruence set wide R where
  defined := hR.defined
  refl := hR.refl
  symm := hR.symm
  trans := hR.trans
  kind := hR.kind
  inScope hab ha hb hne := (hR.inScope hab ha hb hne).imp (hwide _) (hwide _)
  fields := hR.fields

/-- A relation of definitions among those of the folded set. -/
def Image (set : DefinitionSet) (table : RenameTable) (R : String → String → Prop)
    (a b : String) : Prop :=
  a ∈ (set.foldBy table).types ∧ b ∈ (set.foldBy table).types ∧ R a b

section Steps

variable (hset : set.Valid) (hfirst : set.foldTable narrow = .ok first)
include hset hfirst

section Image

variable {R : String → String → Prop} (hR : Congruence set wide R)
  (hsub : ∀ {a b}, OneSurvivor set first a b → R a b)
include hR hsub

/-- Leaves that agree up to a relation that holds the survivors still agree behind the renaming. -/
theorem coarser_image {a b : String} {d e : TypeDefinition} (ha : set.types.get? a = some d)
    (hb : set.types.get? b = some e) : Coarser (leafClass R)
      (fun leaf => leafClass (Image set first R) (leaf.renamedLeaf first)) d e := by
  intro x y hx hy hxy
  rcases (sees_leafClass _).other x y hxy with rfl | ⟨m, n, rfl, rfl⟩
  · rfl
  have hmem : ∀ {k}, .definition k ∈ d.leaves ++ e.leaves → k ∈ set.types := by
    intro k hk
    rcases List.mem_append.1 hk with hk | hk
    · exact hset.resolved ha _ hk
    · exact hset.resolved hb _ hk
  -- survivors are related to what they stand for, so they are in the classes of `m` and `n`
  have hm := hsub (oneSurvivor_apply hset.foldable hfirst (hmem hx))
  have hn := hsub (oneSurvivor_apply hset.foldable hfirst (hmem hy))
  have hmn : R m n := by
    have hself : n ∈ {other | R n other} := hR.refl (hmem hy)
    rw [← ((sees_leafClass _).definition m n).1 hxy] at hself
    exact hself
  have hsurvivors : R (first.apply m) (first.apply n) :=
    hR.trans (hR.symm hm) (hR.trans hmn hn)
  refine ((sees_leafClass _).definition _ _).2 (Set.ext fun other => ?_)
  have hother : R (first.apply m) other ↔ R (first.apply n) other :=
    ⟨hR.trans (hR.symm hsurvivors), hR.trans hsurvivors⟩
  simp only [Set.mem_ofPred_eq, Image, apply_mem_foldBy hset.foldable hfirst (hmem hx),
    apply_mem_foldBy hset.foldable hfirst (hmem hy), true_and, hother]

/-- A congruence that holds the survivors of the first step is one of the folded set. -/
theorem Congruence.image : Congruence (set.foldBy first) wide (Image set first R) where
  defined h := ⟨h.1, h.2.1⟩
  refl h := ⟨h, h, hR.refl (mem_foldBy.1 h).2⟩
  symm h := ⟨h.2.1, h.1, hR.symm h.2.2⟩
  trans h h' := ⟨h.1, h'.2.1, hR.trans h.2.2 h'.2.2⟩
  kind h ha hb := by
    obtain ⟨-, d, hd, rfl⟩ := get?_foldBy.1 ha
    obtain ⟨-, e, he, rfl⟩ := get?_foldBy.1 hb
    have hkind : d.kind = e.kind := hR.kind h.2.2 hd he
    exact hkind
  inScope h ha hb hne := by
    obtain ⟨-, d, hd, rfl⟩ := get?_foldBy.1 ha
    obtain ⟨-, e, he, rfl⟩ := get?_foldBy.1 hb
    have hscope := hR.inScope h.2.2 hd he hne
    exact hscope
  fields h ha hb := by
    classical
    obtain ⟨-, d, hd, rfl⟩ := get?_foldBy.1 ha
    obtain ⟨-, e, he, rfl⟩ := get?_foldBy.1 hb
    refine List.forall₂_map_left_iff.2 (List.forall₂_map_right_iff.2 ?_)
    refine forall₂_of_mem (fun f hf g hg hfg => ⟨hfg.name, hfg.nullable, hfg.isList, ?_⟩)
      (hR.fields h.2.2 hd he)
    simp only [classLeaves, Field.renamed]
    rw [TypeRef.eraseDups_map_members_renamed _ ((hset.wellFormed hd).normal f hf),
      TypeRef.eraseDups_map_members_renamed _ ((hset.wellFormed he).normal g hg)]
    exact (coarser_image hset hfirst hR hsub hd he).eraseDups_eq hf hg hfg.leaves

end Image

variable (hwide : ∀ kind, narrow.includes kind = true → wide.includes kind = true)
  (hsecond : (set.foldBy first).foldTable wide = .ok second)
  (hboth : set.foldTable wide = .ok both)
include hwide hsecond hboth

/-- Names have one survivor in the wider scope exactly when their survivors of the first step have
one in the second. -/
theorem oneSurvivor_foldBy_iff {a b : String} (ha : a ∈ set.types) (hb : b ∈ set.types) :
    OneSurvivor set both a b ↔
      OneSurvivor (set.foldBy first) second (first.apply a) (first.apply b) := by
  have hvalid := valid_foldBy hset hfirst
  have hone := coarsest_oneSurvivor hset.foldable hboth
  have hfolded := coarsest_oneSurvivor hvalid.foldable hsecond
  have hnarrow := (coarsest_oneSurvivor hset.foldable hfirst).toCongruence
  have hsub : ∀ {a b}, OneSurvivor set first a b → OneSurvivor set both a b :=
    fun hab => hone.largest (hnarrow.widen hwide) hab
  constructor
  · intro hab
    have hsurvivors : OneSurvivor set both (first.apply a) (first.apply b) :=
      hone.trans (hone.symm (hsub (oneSurvivor_apply hset.foldable hfirst ha)))
        (hone.trans hab (hsub (oneSurvivor_apply hset.foldable hfirst hb)))
    exact hfolded.largest (Congruence.image hset hfirst hone.toCongruence hsub)
      ⟨apply_mem_foldBy hset.foldable hfirst ha, apply_mem_foldBy hset.foldable hfirst hb,
        hsurvivors⟩
  · intro hab
    exact hone.largest (hfolded.toCongruence.pullback hset hfirst hwide) ⟨ha, hb, hab⟩

theorem apply_foldBy {name : String} (hname : name ∈ set.types) :
    second.apply (first.apply name) = both.apply name := by
  have hvalid := valid_foldBy hset hfirst
  have hone := oneSurvivor_apply hset.foldable hboth hname
  have hmem := apply_mem_foldBy hset.foldable hfirst hname
  have hlast := oneSurvivor_apply hvalid.foldable hsecond hmem
  obtain ⟨hfree, hkept⟩ := mem_foldBy.1 hlast.2.1
  -- the last survivor is in the class of the name, so the smallest of the class is not above it
  have hclass : OneSurvivor set both name (second.apply (first.apply name)) := by
    rw [oneSurvivor_foldBy_iff hset hfirst hwide hsecond hboth hname hkept,
      RenameTable.apply_of_get?_none hfree]
    exact hlast
  have hge := apply_le_of_oneSurvivor hset.foldable hboth hclass
  -- and it is the smallest of what is left of the class
  have hsame := (oneSurvivor_foldBy_iff hset hfirst hwide hsecond hboth hname hone.2.1).1 hone
  have hle := apply_le_of_oneSurvivor hvalid.foldable hsecond hsame
  exact String.le_antisymm (String.le_trans hle (apply_le hset.foldable hfirst _)) hge

theorem get?_eq_none_iff_foldBy {name : String} (hname : name ∈ set.types) :
    both.get? name = none ↔ first.get? name = none ∧ second.get? name = none := by
  have hfolded := (valid_foldBy hset hfirst).foldable
  rw [get?_eq_none_iff_apply hset.foldable hboth, get?_eq_none_iff_apply hset.foldable hfirst,
    get?_eq_none_iff_apply hfolded hsecond, ← apply_foldBy hset hfirst hwide hsecond hboth hname]
  constructor
  · intro hfixed
    have hle := apply_le hset.foldable hfirst name
    have hge := apply_le hfolded hsecond (first.apply name)
    rw [hfixed] at hge
    have hkept : first.apply name = name := String.le_antisymm hle hge
    rw [hkept] at hfixed
    exact ⟨hkept, hfixed⟩
  · intro ⟨hkept, hfixed⟩
    rw [hkept, hfixed]

theorem isEmpty_foldBy : both.isEmpty = (first.isEmpty && second.isEmpty) := by
  have hfolded := (valid_foldBy hset hfirst).foldable
  rw [Bool.eq_iff_iff, Bool.and_eq_true, isEmpty_iff_types hset.foldable hboth,
    isEmpty_iff_types hset.foldable hfirst, isEmpty_iff_types hfolded hsecond]
  have hnone := fun name (hname : name ∈ set.types) =>
    get?_eq_none_iff_foldBy hset hfirst hwide hsecond hboth hname
  refine ⟨fun h => ⟨fun name hname => ?_, fun name hname => ?_⟩, fun h name hname => ?_⟩
  · exact ((hnone name hname).1 (h name hname)).1
  · obtain ⟨-, hmem⟩ := mem_foldBy.1 hname
    exact ((hnone name hmem).1 (h name hmem)).2
  · have hfree := h.1 name hname
    exact (hnone name hname).2 ⟨hfree, h.2 name (mem_foldBy.2 ⟨hfree, hname⟩)⟩

theorem renamedLeaf_foldBy {leaf : TypeRef} (hleaf : set.resolves leaf = true) :
    (leaf.renamedLeaf first).renamedLeaf second = leaf.renamedLeaf both := by
  cases leaf with
  | scalar kind => rfl
  | union members => rfl
  | definition name => exact congrArg _ (apply_foldBy hset hfirst hwide hsecond hboth hleaf)
  | enumeration name =>
    have hname : name ∈ set.enums := hleaf
    have hfolded : name ∈ (set.foldBy first).enums := by rwa [enums_foldBy]
    simp only [TypeRef.renamedLeaf, apply_of_mem_enums hset.foldable hfirst hname,
      apply_of_mem_enums hset.foldable hboth hname,
      apply_of_mem_enums (valid_foldBy hset hfirst).foldable hsecond hfolded]

theorem foldBy_foldBy : (set.foldBy first).foldBy second = set.foldBy both := by
  have hrenamed : ∀ {name d}, set.types.get? name = some d →
      (d.renamed first).renamed second = d.renamed both := by
    intro name d hget
    rw [TypeDefinition.renamed_renamed]
    refine TypeDefinition.mapFields_eq fun field hfield => ?_
    have htype := TypeRef.renamed_trans ((hset.wellFormed hget).normal field hfield)
      (isEmpty_foldBy hset hfirst hwide hsecond hboth) fun leaf hleaf =>
        renamedLeaf_foldBy hset hfirst hwide hsecond hboth (hset.resolved hget leaf
          (TypeDefinition.mem_leaves_iff.2 ⟨field, hfield, hleaf⟩))
    simp only [Field.renamed, htype]
  have htypes : ((set.foldBy first).foldBy second).types = (set.foldBy both).types := by
    refine NameMap.ext_get? fun name => Option.ext fun d => ?_
    rw [get?_foldBy, get?_foldBy]
    simp only [get?_foldBy]
    have hnone := fun (hmem : name ∈ set.types) =>
      get?_eq_none_iff_foldBy hset hfirst hwide hsecond hboth hmem
    refine ⟨fun h => ?_, fun h => ?_⟩
    · obtain ⟨hfree', -, ⟨hfree, old, hget, rfl⟩, rfl⟩ := h
      exact ⟨(hnone (NameMap.mem_of_get? hget)).2 ⟨hfree, hfree'⟩, old, hget, (hrenamed hget).symm⟩
    · obtain ⟨hfree, old, hget, rfl⟩ := h
      obtain ⟨hfirstFree, hsecondFree⟩ := (hnone (NameMap.mem_of_get? hget)).1 hfree
      exact ⟨hsecondFree, _, ⟨hfirstFree, old, hget, rfl⟩, hrenamed hget⟩
  have henums : ((set.foldBy first).foldBy second).enums = (set.foldBy both).enums := by
    simp only [enums_foldBy]
  generalize (set.foldBy first).foldBy second = steps at htypes henums
  generalize set.foldBy both = once at htypes henums
  cases steps
  cases once
  cases htypes
  cases henums
  rfl

end Steps

/-- **Widening the scope.** Every accepted set can be folded in any scope, the result in the scope
of all kinds, and this gives exactly the set that folding in all kinds gives at once, with the
survivors of the survivors. -/
theorem foldDuplicates_widening (set : DefinitionSet) (scope : FoldScope)
    (hset : set.validate = .ok ()) :
    ∃ narrowed first result second both, set.foldDuplicates scope = .ok (narrowed, first) ∧
      narrowed.foldDuplicates .all = .ok (result, second) ∧
      set.foldDuplicates .all = .ok (result, both) ∧
      ∀ name, name ∈ set.types → second.apply (first.apply name) = both.apply name := by
  have hvalid := DefinitionSet.validate_eq_ok_iff.1 hset
  obtain ⟨first, hfirst⟩ := exists_foldTable hvalid.foldable scope
  obtain ⟨second, hsecond⟩ := exists_foldTable (valid_foldBy hvalid hfirst).foldable .all
  obtain ⟨both, hboth⟩ := exists_foldTable hvalid.foldable .all
  have hwide : ∀ kind, scope.includes kind = true → FoldScope.all.includes kind = true :=
    fun _ _ => rfl
  have hresult := foldBy_foldBy hvalid hfirst hwide hsecond hboth
  refine ⟨set.foldBy first, first, set.foldBy both, second, both,
    Fallible.map_eq_ok.2 ⟨first, hfirst, rfl⟩, Fallible.map_eq_ok.2 ⟨second, hsecond, ?_⟩,
    Fallible.map_eq_ok.2 ⟨both, hboth, rfl⟩,
    fun name hname => apply_foldBy hvalid hfirst hwide hsecond hboth hname⟩
  rw [hresult]

/-- Two models with the same fields, and an input for one of them and for both. -/
def authors : DefinitionSet where
  types := .ofList [("Author", ⟨"Author", .model, [⟨"name", .scalar .string, false, false⟩], none⟩),
    ("AuthorInput", ⟨"AuthorInput", .input, [⟨"of", .definition "Author", false, false⟩], none⟩),
    ("Writer", ⟨"Writer", .model, [⟨"name", .scalar .string, false, false⟩], none⟩),
    ("WriterInput", ⟨"WriterInput", .input,
      [⟨"of", .union [.definition "Author", .definition "Writer"], false, false⟩], none⟩)]
  enums := ∅

theorem foldDuplicates_widening_authors : authors.validate = .ok () ∧
    ∃ narrowed first result second both, authors.foldDuplicates .model = .ok (narrowed, first) ∧
      narrowed.foldDuplicates .all = .ok (result, second) ∧
      authors.foldDuplicates .all = .ok (result, both) ∧
      narrowed.types.keys = ["Author", "AuthorInput", "WriterInput"] ∧
      result.types.keys = ["Author", "AuthorInput"] := by
  have hset : authors.validate = .ok () := by decide
  have hmodels : (authors.foldDuplicates .model).map (·.1.types.keys)
      = .ok ["Author", "AuthorInput", "WriterInput"] := by decide
  have hall : (authors.foldDuplicates .all).map (·.1.types.keys)
      = .ok ["Author", "AuthorInput"] := by decide
  obtain ⟨narrowed, first, result, second, both, hfirst, hsecond, hboth, -⟩ :=
    foldDuplicates_widening authors .model hset
  rw [hfirst] at hmodels
  rw [hboth] at hall
  exact ⟨hset, narrowed, first, result, second, both, hfirst, hsecond, hboth,
    Except.ok.inj hmodels, Except.ok.inj hall⟩

end SchemaLayout.Folding
