import SchemaLayout.Proofs.Folding.Congruence

/-!
# Folding finds the coarsest congruence

The classes at which refinement ends are a congruence (`congruence_classes`) and hold every other
one (`Congruence.le_classes`); the table sends each name to the smallest name of its class
(`get?_foldTable`).

* `foldTable_coarsest`: two names have one survivor exactly when the largest congruence relates
  them, and the survivor is the smallest name of the class.
-/
namespace SchemaLayout.Folding

variable {set : DefinitionSet} {scope : FoldScope}

/-! ## Where refinement ends -/

theorem congruence_classes (hset : Foldable set) (scope : FoldScope) :
    Congruence set scope (SameClass set (classes scope set.types.values)) :=
  congruence_sameClass hset covers_classes (shape_classes_eq hset.resolved_values)

theorem Congruence.of_eq (hset : Foldable set) {R : String → String → Prop}
    (hR : Congruence set scope R) {labels : Labels} (hlabels : labels.Covers set.types.values)
    {a b : String} (hab : R a b)
    (h : ∀ {d e}, set.types.get? a = some d → set.types.get? b = some e →
      labels.SameLabel (position set.types.values a) (position set.types.values b)) :
    labels.of a = labels.of b := by
  obtain ⟨d, hd⟩ := NameMap.mem_iff_get?.1 (hR.defined hab).1
  obtain ⟨e, he⟩ := NameMap.mem_iff_get?.1 (hR.defined hab).2
  exact (of_eq_iff hset.toKeyed hlabels (hR.defined hab).1 (hR.defined hab).2).2 (h hd he)

/-- Every congruence is within every labelling that refinement passes through. -/
theorem Congruence.le_labelsAfter (hset : Foldable set) {R : String → String → Prop}
    (hR : Congruence set scope R) (round : Nat) {a b : String} (hab : R a b) :
    (labelsAfter scope set.types.values round).of a
      = (labelsAfter scope set.types.values round).of b := by
  induction round generalizing a b with
  | zero =>
    refine hR.of_eq hset (covers_labelsAfter 0) hab fun hd he => ?_
    exact (sameLabel_initialLabels (getElem?_position hset.toKeyed hd)
      (getElem?_position hset.toKeyed he)).2 (hR.shape_eq hset (fun _ => rfl) hab hd he)
  | succ round ih =>
    have hlabels : (labelsAfter scope set.types.values round).Covers set.types.values :=
      covers_labelsAfter round
    rw [labelsAfter_succ]
    refine hR.of_eq hset (covers_refine hlabels) hab fun hd he => ?_
    refine (sameLabel_refine hlabels (getElem?_position hset.toKeyed hd)
      (getElem?_position hset.toKeyed he)).2 ⟨?_, hR.shape_eq hset ih hab hd he⟩
    exact (of_eq_iff hset.toKeyed hlabels (hR.defined hab).1 (hR.defined hab).2).1 (ih hab)

theorem Congruence.le_classes (hset : Foldable set) {R : String → String → Prop}
    (hR : Congruence set scope R) {a b : String} (hab : R a b) :
    SameClass set (classes scope set.types.values) a b := by
  refine ⟨(hR.defined hab).1, (hR.defined hab).2, ?_⟩
  obtain ⟨last, -, -, -, hclasses⟩ := classes_eq_labelsAfter scope set.types.values
  rw [hclasses]
  exact hR.le_labelsAfter hset _ hab

/-! ## The table -/

/-- In a row of increasing names, the first entry with a label has the smallest name with it. -/
theorem find?_label {labels : Labels} (hsorted : labels.Pairwise fun a b => a.1 < b.1)
    {label : Nat} {first : String × Nat} :
    labels.find? (·.2 == label) = some first ↔
      first ∈ labels ∧ first.2 = label ∧ ∀ other ∈ labels, other.2 = label → first.1 ≤ other.1 := by
  have forward : ∀ {e : String × Nat}, labels.find? (·.2 == label) = some e →
      e ∈ labels ∧ e.2 = label ∧ ∀ other ∈ labels, other.2 = label → e.1 ≤ other.1 := by
    intro e he
    obtain ⟨hlabel, before, after, rfl, hbefore⟩ := List.find?_eq_some_iff_append.1 he
    obtain ⟨-, hafter, -⟩ := List.pairwise_append.1 hsorted
    refine ⟨by simp, by simpa using hlabel, fun other hother hsame => ?_⟩
    rcases List.mem_append.1 hother with hin | hin
    · exact absurd hsame (by simpa using hbefore other hin)
    rcases List.mem_cons.1 hin with rfl | hin
    · exact String.le_refl _
    · exact String.not_lt.1 (String.lt_asymm ((List.pairwise_cons.1 hafter).1 other hin))
  refine ⟨forward, fun ⟨hmem, hlabel, hleast⟩ => ?_⟩
  cases hfind : labels.find? (·.2 == label) with
  | none => exact absurd hlabel (by simpa using List.find?_eq_none.1 hfind first hmem)
  | some e =>
    obtain ⟨hemem, helabel, heleast⟩ := forward hfind
    have hname : e.1 = first.1 :=
      String.le_antisymm (heleast first hmem hlabel) (hleast e hemem helabel)
    rw [show e = first from Prod.ext hname (helabel.trans hlabel.symm)]

theorem mem_foldedPairs {labels : Labels} (hsorted : labels.Pairwise fun a b => a.1 < b.1)
    {name target : String} :
    (name, target) ∈ foldedPairs labels ↔ name ≠ target ∧ ∃ label, (name, label) ∈ labels ∧
      (target, label) ∈ labels ∧ ∀ other, (other, label) ∈ labels → target ≤ other := by
  unfold foldedPairs
  rw [List.mem_filterMap]
  constructor
  · rintro ⟨⟨key, label⟩, hmem, hpair⟩
    cases hfind : labels.find? (·.2 == label) with
    | none => simp [hfind] at hpair
    | some first =>
      obtain ⟨hfirst, hlabel, hleast⟩ := (find?_label hsorted).1 hfind
      obtain ⟨least, label'⟩ := first
      cases hlabel
      simp only [hfind, Option.ite_none_left_eq_some, Option.some.injEq, Prod.mk.injEq] at hpair
      obtain ⟨hne, rfl, rfl⟩ := hpair
      exact ⟨Ne.symm hne, _, hmem, hfirst, fun other hother => hleast _ hother rfl⟩
  · rintro ⟨hne, label, hmem, htarget, hleast⟩
    have hfind : labels.find? (·.2 == label) = some (target, label) :=
      (find?_label hsorted).2 ⟨htarget, rfl, fun other hother hsame =>
        hleast other.1 (by rw [← hsame]; exact hother)⟩
    refine ⟨(name, label), hmem, ?_⟩
    simp [hfind, Ne.symm hne]

theorem functional_foldedPairs {labels : Labels} (hsorted : labels.Pairwise fun a b => a.1 < b.1)
    (hof : ∀ {name label}, (name, label) ∈ labels → labels.of name = label) :
    NameMap.Functional (foldedPairs labels) := by
  intro name target other h h'
  obtain ⟨-, label, hname, htarget, hleast⟩ := (mem_foldedPairs hsorted).1 h
  obtain ⟨-, label', hname', hother, hleast'⟩ := (mem_foldedPairs hsorted).1 h'
  cases (hof hname).symm.trans (hof hname')
  exact String.le_antisymm (hleast other hother) (hleast' target htarget)

theorem get?_foldTable (hset : Foldable set) (hscope : scope ≠ .none) :
    ∃ table, set.foldTable scope = .ok table ∧ ∀ name target, table.get? name = some target ↔
      name ≠ target ∧ SameClass set (classes scope set.types.values) name target ∧
        ∀ other, SameClass set (classes scope set.types.values) name other → target ≤ other := by
  have hcovers : (classes scope set.types.values).Covers set.types.values := covers_classes
  generalize hlabels : classes scope set.types.values = labels at hcovers
  have hnames : labels.map Prod.fst = set.types.keys :=
    hcovers.trans (map_name_values hset.toKeyed)
  have hsorted : labels.Pairwise fun a b => a.1 < b.1 := by
    rw [← List.pairwise_map (f := Prod.fst) (R := (· < ·)), hnames]
    exact set.types.pairwise_keys
  have hentry : ∀ {name label}, (name, label) ∈ labels ↔
      name ∈ set.types ∧ labels.of name = label := by
    intro name label
    rw [hcovers.mem_iff (nodup_names hset.toKeyed), map_name_values hset.toKeyed,
      NameMap.mem_keys_iff]
  have hfunctional : NameMap.Functional (foldedPairs labels) :=
    functional_foldedPairs hsorted fun h => (hentry.1 h).2
  refine ⟨.ofList (foldedPairs labels), ?_, fun name target => ?_⟩
  · unfold DefinitionSet.foldTable
    rw [if_neg hscope, hset.shapeFault?_eq_none, hlabels]
  · show (NameMap.ofList (foldedPairs labels)).get? name = some target ↔ _
    rw [NameMap.get?_ofList hfunctional, mem_foldedPairs hsorted]
    refine and_congr_right fun _ => ?_
    simp only [hentry, SameClass]
    constructor
    · rintro ⟨_, ⟨hname, rfl⟩, ⟨htarget, hof⟩, hleast⟩
      exact ⟨⟨hname, htarget, hof.symm⟩, fun other h => hleast other ⟨h.2.1, h.2.2.symm⟩⟩
    · rintro ⟨⟨hname, htarget, hof⟩, hleast⟩
      exact ⟨_, ⟨hname, rfl⟩, ⟨htarget, hof.symm⟩,
        fun other h => hleast other ⟨hname, h.1, h.2.symm⟩⟩

/-! ## Survivors -/

/-- The largest congruence of a set. -/
structure Coarsest (set : DefinitionSet) (scope : FoldScope) (R : String → String → Prop) : Prop
    extends Congruence set scope R where
  largest : ∀ {S : String → String → Prop}, Congruence set scope S → ∀ {a b}, S a b → R a b

theorem coarsest_classes (hset : Foldable set) :
    Coarsest set scope (SameClass set (classes scope set.types.values)) where
  toCongruence := congruence_classes hset scope
  largest hS _ _ hab := hS.le_classes hset hab

/-- A name survives as the smallest name of its class. -/
theorem apply_foldTable (hset : Foldable set) {table : RenameTable}
    (htable : ∀ name target, table.get? name = some target ↔ name ≠ target ∧
      SameClass set (classes scope set.types.values) name target ∧
        ∀ other, SameClass set (classes scope set.types.values) name other → target ≤ other)
    {name : String} (hname : name ∈ set.types) :
    SameClass set (classes scope set.types.values) name (table.apply name) ∧
      ∀ other, SameClass set (classes scope set.types.values) name other →
        table.apply name ≤ other := by
  have hrefl := (congruence_classes hset scope).refl hname
  cases hget : table.get? name with
  | some target =>
    rw [show table.apply name = target by simp [RenameTable.apply, hget]]
    exact ((htable name target).1 hget).2
  | none =>
    rw [show table.apply name = name by simp [RenameTable.apply, hget]]
    refine ⟨hrefl, ?_⟩
    obtain ⟨least, -, hleast, hle⟩ := set.types.exists_least ⟨name, hname, hrefl⟩
    have hle' : ∀ other, SameClass set (classes scope set.types.values) name other →
        least ≤ other := fun other h => hle other h.2.1 h
    -- a smallest name other than `name` would be in the table
    by_cases hne : name = least
    · rw [hne] at hle' ⊢
      exact hle'
    · rw [(htable name least).2 ⟨hne, hleast, hle'⟩] at hget
      cases hget

/-- **Coarsest congruence.** Folding succeeds on every set without dangling references to types and
without nested unions. Two definitions have one survivor exactly when the largest congruence relates
them, and that survivor is the smallest name of their class. -/
theorem foldTable_coarsest (set : DefinitionSet) (scope : FoldScope) (hset : Foldable set)
    (hscope : scope ≠ .none) :
    ∃ table R, set.foldTable scope = .ok table ∧ Coarsest set scope R ∧
      (∀ a b, a ∈ set.types → b ∈ set.types → (table.apply a = table.apply b ↔ R a b)) ∧
      ∀ a, a ∈ set.types → R a (table.apply a) ∧ ∀ b, R a b → table.apply a ≤ b := by
  obtain ⟨table, hok, htable⟩ := get?_foldTable hset hscope
  have hsurvivor : ∀ a, a ∈ set.types →
      SameClass set (classes scope set.types.values) a (table.apply a) ∧
        ∀ b, SameClass set (classes scope set.types.values) a b → table.apply a ≤ b :=
    fun a ha => apply_foldTable hset htable ha
  have hR := congruence_classes hset scope
  refine ⟨table, _, hok, coarsest_classes hset, fun a b ha hb => ?_, hsurvivor⟩
  obtain ⟨hclass, hleast⟩ := hsurvivor a ha
  obtain ⟨hclass', hleast'⟩ := hsurvivor b hb
  constructor
  · intro heq
    rw [heq] at hclass
    exact hR.trans hclass (hR.symm hclass')
  · intro hab
    have hle : table.apply a ≤ table.apply b := hleast _ (hR.trans hab hclass')
    have hge : table.apply b ≤ table.apply a := hleast' _ (hR.trans (hR.symm hab) hclass)
    exact String.le_antisymm hle hge

/-- Two definitions that refer to each other, and one that refers to either. -/
def mutualPair : DefinitionSet where
  types := .ofList [("A", ⟨"A", .input, [⟨"next", .definition "B", false, false⟩], none⟩),
    ("B", ⟨"B", .input, [⟨"next", .definition "A", false, false⟩], none⟩),
    ("C", ⟨"C", .input, [⟨"next", .union [.definition "A", .definition "B"], false, false⟩], none⟩)]
  enums := ∅

theorem foldTable_coarsest_mutualPair : Foldable mutualPair ∧ FoldScope.input ≠ .none ∧
    ∃ table R, mutualPair.foldTable .input = .ok table ∧ table.toList = [("B", "A"), ("C", "A")] ∧
      Coarsest mutualPair .input R ∧
      (∀ a b, a ∈ mutualPair.types → b ∈ mutualPair.types →
        (table.apply a = table.apply b ↔ R a b)) ∧
      ∀ a, a ∈ mutualPair.types → R a (table.apply a) ∧ ∀ b, R a b → table.apply a ≤ b := by
  have hset : Foldable mutualPair := (DefinitionSet.fault?_eq_none_iff.1 (by decide)).foldable
  have hscope : FoldScope.input ≠ .none := by decide
  have htable : mutualPair.foldTable .input = .ok (.ofList [("B", "A"), ("C", "A")]) := by decide
  obtain ⟨table, R, hok, hcoarsest⟩ := foldTable_coarsest mutualPair .input hset hscope
  cases htable.symm.trans hok
  exact ⟨hset, hscope, _, R, htable, by decide, hcoarsest⟩

end SchemaLayout.Folding
