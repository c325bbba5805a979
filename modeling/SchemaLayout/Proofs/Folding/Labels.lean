import Mathlib.Logic.Function.Iterate
import SchemaLayout.Pass.Folding
import SchemaLayout.Proofs.Names.Distinct
import SchemaLayout.Proofs.Names.Entries

/-!
# Labels and the classes they stand for

A labelling puts two positions of a list of definitions into one class when they have one label
(`SameLabel`). Labelling by keys gives the classes of the keys (`sameLabel_labelBy`), and a round of
refinement splits classes by shape (`sameLabel_refine`), so it never joins two and adds one unless
it changes nothing.

* `settle_eq_iterate`: with rounds enough, refinement ends by the first round that adds no class.
-/
namespace SchemaLayout.Folding

variable {definitions : List TypeDefinition} {labels next : Labels}

/-- The labelling has an entry for each definition, in order. -/
def Labels.Covers (labels : Labels) (definitions : List TypeDefinition) : Prop :=
  labels.map Prod.fst = definitions.map (·.name)

def Labels.labelAt (labels : Labels) (position : Nat) : Nat :=
  ((labels.map Prod.snd)[position]?).getD 0

def Labels.SameLabel (labels : Labels) (i j : Nat) : Prop := labels.labelAt i = labels.labelAt j

/-- Classes of the labelling `fine` are parts of classes of `coarse`. -/
def Labels.Refines (definitions : List TypeDefinition) (fine coarse : Labels) : Prop :=
  ∀ i j, i < definitions.length → j < definitions.length → fine.SameLabel i j → coarse.SameLabel i j

theorem Labels.Covers.length_eq (h : labels.Covers definitions) :
    labels.length = definitions.length := by
  simpa using congrArg List.length h

/-! ## Names and positions -/

/-- Looking a name up finds the first entry that has it. -/
theorem lookup_eq_getElem? (l : List (String × Nat)) (name : String) :
    l.lookup name = (l.map Prod.snd)[(l.map Prod.fst).idxOf name]? := by
  induction l with
  | nil => rfl
  | cons entry rest ih =>
    rw [List.lookup_cons, List.map_cons, List.map_cons]
    by_cases hname : name = entry.1
    · simp [hname]
    · have hne : (name == entry.1) = false := beq_eq_false_iff_ne.2 hname
      simp [hne, ih, List.idxOf_cons_ne _ (Ne.symm hname)]

/-- The position of the definition that a name refers to: of several the last. -/
def position (definitions : List TypeDefinition) (name : String) : Nat :=
  definitions.length - 1 - (definitions.map (·.name)).reverse.idxOf name

theorem position_lt {name : String} (h : name ∈ definitions.map (·.name)) :
    position definitions name < definitions.length := by
  have hne := List.length_pos_of_mem h
  rw [List.length_map] at hne
  unfold position
  omega

/-- The label of a name is the one at the position that it refers to. -/
theorem Labels.Covers.of_eq_labelAt (hlabels : labels.Covers definitions) {name : String}
    (h : name ∈ definitions.map (·.name)) :
    labels.of name = labels.labelAt (position definitions name) := by
  have hindex : (definitions.map (·.name)).reverse.idxOf name < (labels.map Prod.snd).length := by
    have hlt := List.idxOf_lt_length_of_mem (List.mem_reverse.2 h)
    rwa [List.length_reverse, List.length_map, ← hlabels.length_eq, ← List.length_map Prod.snd]
      at hlt
  unfold Labels.of Labels.labelAt position
  rw [lookup_eq_getElem?, List.map_reverse, List.map_reverse, hlabels,
    List.getElem?_reverse hindex, List.length_map, hlabels.length_eq]

theorem Labels.Covers.of_eq_iff (hlabels : labels.Covers definitions) {a b : String}
    (ha : a ∈ definitions.map (·.name)) (hb : b ∈ definitions.map (·.name)) :
    labels.of a = labels.of b ↔
      labels.SameLabel (position definitions a) (position definitions b) := by
  rw [Labels.SameLabel, hlabels.of_eq_labelAt ha, hlabels.of_eq_labelAt hb]

/-- Where names are distinct, a definition is the one that its name refers to. -/
theorem position_name (hnames : (definitions.map (·.name)).Nodup) {i : Nat}
    {definition : TypeDefinition} (h : definitions[i]? = some definition) :
    position definitions definition.name = i := by
  obtain ⟨hlt, rfl⟩ := List.getElem?_eq_some_iff.1 h
  have hback : definitions.length - 1 - i < (definitions.map (·.name)).reverse.length := by
    rw [List.length_reverse, List.length_map]
    omega
  have hname : (definitions.map (·.name)).reverse[definitions.length - 1 - i]
      = definitions[i].name := by
    simp only [List.getElem_reverse, List.length_map, List.getElem_map]
    congr 2
    omega
  unfold position
  rw [← hname, List.Nodup.idxOf_getElem (List.nodup_reverse.2 hnames)]
  omega

/-- Where names are distinct, the entries of the labelling are the names with their labels. -/
theorem Labels.Covers.mem_iff (hlabels : labels.Covers definitions)
    (hnames : (definitions.map (·.name)).Nodup) {name : String} {label : Nat} :
    (name, label) ∈ labels ↔ name ∈ definitions.map (·.name) ∧ labels.of name = label := by
  have hnodup : (labels.reverse.map Prod.fst).Nodup := by
    rw [List.map_reverse, hlabels]
    exact List.nodup_reverse.2 hnames
  have hof : ∀ {label}, (name, label) ∈ labels → labels.of name = label := by
    intro label hmem
    have hlookup : labels.reverse.lookup name = some label :=
      (NameMap.lookup_eq_some_iff_of_nodup hnodup).2 (List.mem_reverse.2 hmem)
    rw [Labels.of, hlookup]
    rfl
  have hname : name ∈ definitions.map (·.name) ↔ ∃ label, (name, label) ∈ labels := by
    rw [← hlabels]
    simp
  constructor
  · intro hmem
    exact ⟨hname.2 ⟨label, hmem⟩, hof hmem⟩
  · rintro ⟨hin, rfl⟩
    obtain ⟨label, hmem⟩ := hname.1 hin
    rwa [hof hmem]

/-! ## Labelling by keys -/

section Keys

variable {κ : Type} [DecidableEq κ] {keys : List κ} (hkeys : keys.length = definitions.length)
include hkeys

theorem covers_labelBy : (labelBy definitions keys).Covers definitions :=
  List.map_fst_zip (by simp [hkeys])

/-- Labelling by keys puts positions of one key into one class. -/
theorem sameLabel_labelBy {i j : Nat} (hi : i < definitions.length) (hj : j < definitions.length) :
    (labelBy definitions keys).SameLabel i j ↔ keys[i]? = keys[j]? := by
  have hlabel : ∀ k (hk : k < keys.length),
      (labelBy definitions keys).labelAt k = keys.eraseDups.idxOf keys[k] := by
    intro k hk
    unfold Labels.labelAt labelBy
    rw [List.map_snd_zip (by simp [hkeys]), List.getElem?_map, List.getElem?_eq_getElem hk]
    rfl
  rw [← hkeys] at hi hj
  unfold Labels.SameLabel
  rw [hlabel i hi, hlabel j hj, List.getElem?_eq_getElem hi, List.getElem?_eq_getElem hj,
    Option.some.injEq]
  exact List.idxOf_inj (List.mem_eraseDups.2 (List.getElem_mem hi))

end Keys

/-! ## Counting classes -/

theorem Labels.Covers.count_eq (h : labels.Covers definitions) :
    labels.count = ((Finset.range definitions.length).image labels.labelAt).card := by
  have himage : (labels.map Prod.snd).toFinset
      = (Finset.range definitions.length).image labels.labelAt := by
    ext label
    simp only [List.mem_toFinset, Finset.mem_image, Finset.mem_range, Labels.labelAt,
      List.mem_iff_getElem?, ← h.length_eq, ← List.length_map Prod.snd]
    constructor
    · rintro ⟨i, hget⟩
      exact ⟨i, (List.getElem?_eq_some_iff.1 hget).1, by rw [hget]; rfl⟩
    · rintro ⟨i, hlt, rfl⟩
      exact ⟨i, by rw [List.getElem?_eq_getElem hlt]; rfl⟩
  unfold Labels.count
  rw [Distinct.length_eraseDups, himage]

theorem Labels.Covers.count_le (h : labels.Covers definitions) :
    labels.count ≤ definitions.length := by
  rw [h.count_eq]
  exact Finset.card_image_le.trans_eq (Finset.card_range _)

/-- A finer labelling has more classes or the same ones. -/
theorem Labels.Refines.count_lt_or (hnext : next.Covers definitions)
    (hlabels : labels.Covers definitions) (h : Labels.Refines definitions next labels) :
    labels.count ≤ next.count ∧
      (next.count = labels.count → Labels.Refines definitions labels next) := by
  rw [hnext.count_eq, hlabels.count_eq]
  obtain ⟨hle, heq⟩ := Distinct.card_image_of_coarser (s := Finset.range definitions.length)
    (f := next.labelAt) (g := labels.labelAt)
    (fun i j hi hj => h i j (Finset.mem_range.1 hi) (Finset.mem_range.1 hj))
  refine ⟨hle, fun hcount i j hi hj => ?_⟩
  exact heq hcount.symm i j (Finset.mem_range.2 hi) (Finset.mem_range.2 hj)

/-! ## Rounds of refinement -/

section Rounds

variable {scope : FoldScope}

theorem getElem?_shapes {i : Nat} {definition : TypeDefinition}
    (h : definitions[i]? = some definition) :
    (shapes scope labels definitions)[i]? = some (shape scope labels i definition) := by
  rw [shapes, List.getElem?_mapIdx, h]
  rfl

theorem covers_initialLabels : (initialLabels scope definitions).Covers definitions :=
  covers_labelBy (by simp [shapes])

theorem covers_refine (hlabels : labels.Covers definitions) :
    (refine scope definitions labels).Covers definitions :=
  covers_labelBy (by simp [shapes, hlabels.length_eq])

theorem sameLabel_initialLabels {i j : Nat} {d e : TypeDefinition}
    (hi : definitions[i]? = some d) (hj : definitions[j]? = some e) :
    (initialLabels scope definitions).SameLabel i j ↔
      shape scope [] i d = shape scope [] j e := by
  have hkeys : (shapes scope [] definitions).length = definitions.length := by simp [shapes]
  unfold initialLabels
  rw [sameLabel_labelBy hkeys (List.getElem?_eq_some_iff.1 hi).1 (List.getElem?_eq_some_iff.1 hj).1,
    getElem?_shapes hi, getElem?_shapes hj, Option.some.injEq]

theorem sameLabel_refine (hlabels : labels.Covers definitions) {i j : Nat} {d e : TypeDefinition}
    (hi : definitions[i]? = some d) (hj : definitions[j]? = some e) :
    (refine scope definitions labels).SameLabel i j ↔
      labels.SameLabel i j ∧ shape scope labels i d = shape scope labels j e := by
  have hkey : ∀ {k : Nat} {c : TypeDefinition}, definitions[k]? = some c →
      ((labels.map (·.2)).zip (shapes scope labels definitions))[k]?
        = some (labels.labelAt k, shape scope labels k c) := by
    intro k c hk
    have hlt := (List.getElem?_eq_some_iff.1 hk).1
    rw [← hlabels.length_eq, ← List.length_map Prod.snd] at hlt
    rw [List.getElem?_zip_eq_some]
    refine ⟨?_, getElem?_shapes hk⟩
    rw [List.getElem?_eq_getElem hlt, Labels.labelAt, List.getElem?_eq_getElem hlt]
    rfl
  have hkeys : ((labels.map (·.2)).zip (shapes scope labels definitions)).length
      = definitions.length := by simp [shapes, hlabels.length_eq]
  unfold refine
  rw [sameLabel_labelBy hkeys (List.getElem?_eq_some_iff.1 hi).1 (List.getElem?_eq_some_iff.1 hj).1,
    hkey hi, hkey hj, Option.some.injEq, Prod.mk.injEq]
  exact Iff.rfl

theorem refines_refine (hlabels : labels.Covers definitions) :
    Labels.Refines definitions (refine scope definitions labels) labels := by
  intro i j hi hj h
  exact ((sameLabel_refine hlabels (List.getElem?_eq_getElem hi) (List.getElem?_eq_getElem hj)).1
    h).1

theorem covers_iterate (hlabels : labels.Covers definitions) (rounds : Nat) :
    ((refine scope definitions)^[rounds] labels).Covers definitions := by
  induction rounds with
  | zero => exact hlabels
  | succ rounds ih =>
    rw [Function.iterate_succ_apply']
    exact covers_refine ih

/-- With rounds enough to have a class for each definition, refinement ends by the first round that
adds none. -/
theorem settle_eq_iterate {fuel : Nat} (hlabels : labels.Covers definitions)
    (hfuel : definitions.length < fuel + labels.count) :
    ∃ rounds < fuel,
      settle scope definitions fuel labels = (refine scope definitions)^[rounds + 1] labels ∧
      ((refine scope definitions)^[rounds + 1] labels).count
        = ((refine scope definitions)^[rounds] labels).count ∧
      ∀ earlier < rounds, ((refine scope definitions)^[earlier + 1] labels).count
        ≠ ((refine scope definitions)^[earlier] labels).count := by
  induction fuel generalizing labels with
  | zero =>
    have := hlabels.count_le
    omega
  | succ fuel ih =>
    have hnext : (refine scope definitions labels).Covers definitions := covers_refine hlabels
    have hgrows := (refines_refine hlabels).count_lt_or hnext hlabels
    by_cases hcount : (refine scope definitions labels).count = labels.count
    · refine ⟨0, Nat.succ_pos _, if_pos hcount, hcount, fun earlier h => ?_⟩
      exact absurd h (Nat.not_lt_zero earlier)
    · obtain ⟨rounds, hrounds, hsettle, hlast, hbefore⟩ :=
        ih hnext (by omega)
      refine ⟨rounds + 1, Nat.succ_lt_succ hrounds, (if_neg hcount).trans hsettle, hlast, ?_⟩
      intro earlier hearlier
      cases earlier with
      | zero => exact hcount
      | succ earlier => exact hbefore earlier (Nat.lt_of_succ_lt_succ hearlier)

end Rounds

end SchemaLayout.Folding
