import SchemaLayout.Pass.Filters
import SchemaLayout.Proofs.Schema.Substitution

/-!
# Merging fields

A merge takes in one field after the other (`mergeFields_eq`). It keeps the names apart and loses no
leaf, so a merged filter is well-formed and has the renamed leaves of all filters that went into it
(`mem_leaves_mergeVariants`).
-/
namespace SchemaLayout.Filters

variable {table : RenameTable}

/-- The renamed fields of several filters with the names of their owners, in the order of the
merge. -/
def incoming (table : RenameTable) (variants : List TypeDefinition) : List (String × Field) :=
  variants.flatMap fun variant =>
    variant.fields.map fun field => (variant.name, field.renamed table)

theorem mergeFields_eq (variants : List TypeDefinition) : mergeFields table variants =
    (incoming table variants).foldlM (fun merged pair => mergeField merged pair.1 pair.2) [] := by
  have hfrom : ∀ merged, variants.foldlM (fun merged variant => variant.fields.foldlM
      (fun merged field => mergeField merged variant.name (field.renamed table)) merged) merged =
      (incoming table variants).foldlM (fun merged pair => mergeField merged pair.1 pair.2)
        merged := by
    induction variants with
    | nil => exact fun merged => rfl
    | cons variant variants ih =>
      intro merged
      simp only [incoming, List.foldlM_cons, List.flatMap_cons, List.foldlM_append,
        List.foldlM_map] at ih ⊢
      simp only [ih]
  exact hfrom []

/-- Merged fields with names of their own, types in normal form, and the leaves of `fields`. -/
structure Merges (fields : List Field) (merged : List MergedField) : Prop where
  distinct : (merged.map (·.field.name)).Nodup
  normal : ∀ entry ∈ merged, entry.field.type.Normal
  leaves : ∀ leaf, (∃ entry ∈ merged, leaf ∈ entry.field.type.members) ↔
    ∃ field ∈ fields, leaf ∈ field.type.members

theorem merges_nil : Merges [] [] where
  distinct := List.nodup_nil
  normal entry h := by cases h
  leaves leaf := by simp

/-- A change of nullability keeps the names, the types and so the leaves of merged fields. -/
theorem Merges.map {fields : List Field} {merged : List MergedField} (h : Merges fields merged)
    {f : MergedField → MergedField} (hname : ∀ entry, (f entry).field.name = entry.field.name)
    (htype : ∀ entry, (f entry).field.type = entry.field.type) : Merges fields (merged.map f) where
  distinct := by
    have hnames : (merged.map f).map (·.field.name) = merged.map (·.field.name) := by
      rw [List.map_map]
      exact List.map_congr_left fun entry _ => hname entry
    rw [hnames]
    exact h.distinct
  normal entry hentry := by
    obtain ⟨old, hold, rfl⟩ := List.mem_map.1 hentry
    rw [htype]
    exact h.normal old hold
  leaves leaf := by
    simp only [← h.leaves leaf, List.mem_map, exists_exists_and_eq_and, htype]

theorem Merges.step {fields : List Field} {merged next : List MergedField} {owner : String}
    {field : Field} (h : Merges fields merged) (hfield : field.type.Normal)
    (hnext : mergeField merged owner field = .ok next) : Merges (fields ++ [field]) next := by
  unfold mergeField at hnext
  split at hnext
  · rename_i hnew
    cases hnext
    rw [List.find?_eq_none] at hnew
    refine ⟨?_, ?_, ?_⟩
    · rw [List.map_append, List.map_singleton]
      refine List.nodup_append.2 ⟨h.distinct, List.nodup_singleton _, ?_⟩
      rintro a ha b hb rfl
      obtain ⟨entry, hentry, rfl⟩ := List.mem_map.1 ha
      exact hnew entry hentry (beq_iff_eq.2 (List.mem_singleton.1 hb))
    · intro entry hentry
      rcases List.mem_append.1 hentry with hold | hnew
      · exact h.normal entry hold
      · rw [List.mem_singleton.1 hnew]
        exact hfield
    · intro leaf
      simp only [List.mem_append, List.mem_singleton, or_and_right, exists_or, exists_eq_left,
        h.leaves leaf]
  · rename_i known hknown
    split at hnext
    · rename_i hagree
      cases hnext
      -- the field's leaves are those of the known field, so there is nothing to add
      have hadd : Merges (fields ++ [field]) merged := by
        refine ⟨h.distinct, h.normal, fun leaf => ?_⟩
        simp only [List.mem_append, List.mem_singleton, or_and_right, exists_or, exists_eq_left,
          ← h.leaves leaf]
        refine (or_iff_left_of_imp fun hleaf => ?_).symm
        exact ⟨known, List.mem_of_find?_eq_some hknown, hagree.1 ▸ hleaf⟩
      refine hadd.map (fun entry => ?_) fun entry => ?_
      · split <;> rfl
      · split <;> rfl
    · cases hnext

theorem Merges.run {fields : List Field} {pairs : List (String × Field)}
    {merged result : List MergedField} (h : Merges fields merged)
    (hpairs : ∀ pair ∈ pairs, pair.2.type.Normal)
    (hresult : pairs.foldlM (fun merged pair => mergeField merged pair.1 pair.2) merged
      = .ok result) :
    Merges (fields ++ pairs.map (·.2)) result := by
  induction pairs generalizing fields merged with
  | nil =>
    cases hresult
    simpa using h
  | cons pair pairs ih =>
    obtain ⟨next, hnext, hrest⟩ := Fallible.foldlM_cons_eq_ok.1 hresult
    have hstep := h.step (hpairs pair List.mem_cons_self) hnext
    simpa using ih hstep (fun other hother => hpairs other (List.mem_cons_of_mem _ hother)) hrest

theorem name_mergeVariants {base : String} {variants : List TypeDefinition}
    {merged : TypeDefinition} (h : mergeVariants table base variants = .ok merged) :
    merged.name = base := by
  obtain ⟨entries, -, rfl⟩ := Fallible.map_eq_ok.1 h
  rfl

section MergedVariants

variable {base : String} {variants : List TypeDefinition} {merged : TypeDefinition}
  (hvariants : ∀ variant ∈ variants, variant.WellFormed)
  (h : mergeVariants table base variants = .ok merged)
include hvariants h

theorem merges_mergeVariants : ∃ entries, Merges ((incoming table variants).map (·.2)) entries ∧
    merged = ⟨base, .input, entries.map (·.field), variants.findSome? (·.sourceEntity?)⟩ := by
  unfold mergeVariants at h
  rw [mergeFields_eq] at h
  cases hentries : (incoming table variants).foldlM
      (fun merged pair => mergeField merged pair.1 pair.2) [] with
  | error cause => rw [hentries] at h; cases h
  | ok entries =>
    rw [hentries] at h
    cases h
    refine ⟨entries, merges_nil.run (fun pair hpair => ?_) hentries, rfl⟩
    obtain ⟨variant, hvariant, hfield⟩ := List.mem_flatMap.1 hpair
    obtain ⟨field, hmem, rfl⟩ := List.mem_map.1 hfield
    exact ((hvariants variant hvariant).normal field hmem).renamed

theorem wellFormed_mergeVariants : merged.WellFormed := by
  obtain ⟨entries, hentries, rfl⟩ := merges_mergeVariants hvariants h
  refine ⟨?_, fun field hfield => ?_⟩
  · show ((entries.map (·.field)).map (·.name)).Nodup
    rw [List.map_map]
    exact hentries.distinct
  · obtain ⟨entry, hentry, rfl⟩ := List.mem_map.1 hfield
    exact hentries.normal entry hentry

/-- The leaves of a merged filter are the renamed leaves of the filters that went into it. -/
theorem mem_leaves_mergeVariants {leaf : TypeRef} : leaf ∈ merged.leaves ↔
    ∃ variant ∈ variants, ∃ x ∈ variant.leaves, x.renamedLeaf table = leaf := by
  obtain ⟨entries, hentries, rfl⟩ := merges_mergeVariants hvariants h
  have hmerged : leaf ∈ (entries.map (·.field)).flatMap (·.type.members) ↔
      ∃ field ∈ (incoming table variants).map (·.2), leaf ∈ field.type.members := by
    rw [← hentries.leaves leaf]
    simp only [List.mem_flatMap, List.mem_map, exists_exists_and_eq_and]
  have hrenamed : (∃ field ∈ (incoming table variants).map (·.2), leaf ∈ field.type.members) ↔
      ∃ variant ∈ variants, leaf ∈ (variant.renamed table).leaves := by
    simp only [incoming, TypeDefinition.mem_leaves_iff, TypeDefinition.renamed,
      TypeDefinition.mapFields, List.map_flatMap, List.map_map, List.mem_flatMap, List.mem_map]
    constructor
    · rintro ⟨_, ⟨variant, hvariant, field, hfield, rfl⟩, hleaf⟩
      exact ⟨variant, hvariant, _, ⟨field, hfield, rfl⟩, hleaf⟩
    · rintro ⟨variant, hvariant, _, ⟨field, hfield, rfl⟩, hleaf⟩
      exact ⟨_, ⟨variant, hvariant, field, hfield, rfl⟩, hleaf⟩
  show leaf ∈ (entries.map (·.field)).flatMap (·.type.members) ↔ _
  rw [hmerged, hrenamed]
  exact exists_congr fun variant => and_congr_right fun hvariant =>
    TypeDefinition.mem_leaves_renamed (hvariants variant hvariant)

end MergedVariants

end SchemaLayout.Filters
