import SchemaLayout.Proofs.Filters.Merging

/-!
# Joining fields by name

What a merge makes of fields, said without the merge: the first field of each name stays in its
place and becomes nullable where any field of that name is (`joinByName`). The merge gives this
exactly where fields of one name agree, and fails for incompatible filters where they do not
(`mergeVariants_outcome`).
-/
namespace SchemaLayout.Filters

/-! ## Outcomes -/

/-- The computation gives something good where fields agree, and fails for incompatible filters
where they do not. -/
structure Outcome (agrees : Prop) (good : α → Prop) (computed : Except SchemaError α) : Prop where
  ok : agrees → ∃ a, computed = .ok a ∧ good a
  incompatible : ¬agrees → ∃ left right known field,
    computed = .error (.incompatibleFilters left right known field)

namespace Outcome

variable {α β : Type}

theorem map {agrees : Prop} {good : α → Prop} {computed : Except SchemaError α} {f : α → β}
    {good' : β → Prop} (h : Outcome agrees good computed) (hgood : ∀ a, good a → good' (f a)) :
    Outcome agrees good' (computed.map f) where
  ok hagrees := by
    obtain ⟨a, hok, ha⟩ := h.ok hagrees
    exact ⟨f a, by rw [hok]; rfl, hgood a ha⟩
  incompatible hdisagrees := by
    obtain ⟨left, right, known, field, herror⟩ := h.incompatible hdisagrees
    exact ⟨left, right, known, field, by rw [herror]; rfl⟩

theorem congr {agrees agrees' : Prop} {good : α → Prop} {computed : Except SchemaError α}
    (h : Outcome agrees good computed) (hiff : agrees' ↔ agrees) :
    Outcome agrees' good computed where
  ok hagrees := h.ok (hiff.1 hagrees)
  incompatible hdisagrees := h.incompatible (mt hiff.2 hdisagrees)

/-- A fold has the outcome that its steps have. `P` says what was reached behind some elements, and
what does not agree there does not agree further on. -/
theorem foldlM {step : β → α → Except SchemaError β} (agrees : List α → Prop)
    (P : List α → β → Prop) {all : List α}
    (hearlier : ∀ {done rest}, agrees (done ++ rest) → agrees done)
    (hstep : ∀ {done a rest b}, all = done ++ a :: rest → agrees done → P done b →
      Outcome (agrees (done ++ [a])) (P (done ++ [a])) (step b a))
    {b : β} (hnil : agrees []) (hb : P [] b) :
    Outcome (agrees all) (P all) (all.foldlM step b) := by
  have hrun : ∀ {done rest : List α} {b : β}, all = done ++ rest → agrees done → P done b →
      Outcome (agrees all) (P all) (rest.foldlM step b) := by
    intro done rest b hsplit hdone hb
    induction rest generalizing done b with
    | nil =>
      obtain rfl : all = done := by rw [hsplit, List.append_nil]
      exact ⟨fun _ => ⟨b, rfl, hb⟩, fun hnot => absurd hdone hnot⟩
    | cons a rest ih =>
      have hall : all = (done ++ [a]) ++ rest := by rw [hsplit, List.append_assoc]; rfl
      have hnow := hstep hsplit hdone hb
      by_cases hagrees : agrees (done ++ [a])
      · obtain ⟨next, hnext, hgood⟩ := hnow.ok hagrees
        rw [List.foldlM_cons, hnext]
        exact ih hall hagrees hgood
      · obtain ⟨left, right, known, field, herror⟩ := hnow.incompatible hagrees
        rw [List.foldlM_cons, herror]
        exact ⟨fun h => absurd (hearlier (hall ▸ h)) hagrees,
          fun _ => ⟨left, right, known, field, rfl⟩⟩
  exact hrun rfl hnil hb

end Outcome

/-! ## Fields by name -/

/-- Fields of one name agree in type and list mark. -/
def FieldsAgree (fields : List Field) : Prop :=
  ∀ a ∈ fields, ∀ b ∈ fields, a.name = b.name → a.type = b.type ∧ a.isList = b.isList

/-- The first field of each name. -/
def firstByName : List Field → List Field
  | [] => []
  | field :: rest => field :: (firstByName rest).filter (·.name != field.name)

/-- The field, nullable where any field of its name is. -/
def nullableOver (fields : List Field) (field : Field) : Field :=
  { field with nullable := fields.any fun other => other.name == field.name && other.nullable }

/-- One field of each name: the first one, nullable where any of that name is. -/
def joinByName (fields : List Field) : List Field :=
  (firstByName fields).map (nullableOver fields)

variable {fields done : List Field} {field : Field}

theorem FieldsAgree.of_append {rest : List Field} (h : FieldsAgree (done ++ rest)) :
    FieldsAgree done :=
  fun a ha b hb => h a (List.mem_append_left _ ha) b (List.mem_append_left _ hb)

theorem mem_of_mem_firstByName (h : field ∈ firstByName fields) : field ∈ fields := by
  induction fields with
  | nil => exact h
  | cons first rest ih =>
    rcases List.mem_cons.1 h with rfl | h
    · exact List.mem_cons_self
    · exact List.mem_cons_of_mem _ (ih (List.mem_filter.1 h).1)

theorem exists_first (h : field ∈ fields) :
    ∃ first ∈ firstByName fields, first.name = field.name := by
  induction fields with
  | nil => cases h
  | cons first rest ih =>
    by_cases hname : first.name = field.name
    · exact ⟨first, List.mem_cons_self, hname⟩
    · have hrest : field ∈ rest := (List.mem_cons.1 h).resolve_left fun heq => hname (heq ▸ rfl)
      obtain ⟨found, hfound, hfirst⟩ := ih hrest
      refine ⟨found, List.mem_cons_of_mem _ (List.mem_filter.2 ⟨hfound, bne_iff_ne.2 ?_⟩), hfirst⟩
      exact fun heq => hname (heq.symm.trans hfirst)

/-- A field behind others is a first field when none of them has its name. -/
theorem firstByName_concat (done : List Field) (field : Field) : firstByName (done ++ [field]) =
    firstByName done ++ if done.any (·.name == field.name) then [] else [field] := by
  induction done with
  | nil => rfl
  | cons first rest ih =>
    rw [List.cons_append, firstByName, firstByName, ih, List.filter_append, List.any_cons,
      List.cons_append]
    cases hrest : rest.any (·.name == field.name) with
    | true => simp
    | false => by_cases hname : field.name = first.name <;> simp [hname, Ne.symm]

/-! ## Merging one field more -/

theorem fieldsAgree_concat (hdone : FieldsAgree done) : FieldsAgree (done ++ [field]) ↔
    ∀ known ∈ done, known.name = field.name →
      known.type = field.type ∧ known.isList = field.isList := by
  constructor
  · intro h known hknown
    exact h known (List.mem_append_left _ hknown) field (by simp)
  · intro h a ha b hb hname
    rw [List.mem_append, List.mem_singleton] at ha hb
    rcases ha with ha | rfl <;> rcases hb with hb | rfl
    · exact hdone a ha b hb hname
    · exact h a ha hname
    · exact (h b hb hname.symm).imp Eq.symm Eq.symm
    · exact ⟨rfl, rfl⟩

/-- One field of a name speaks for all others of that name. -/
theorem fieldsAgree_concat_known (hdone : FieldsAgree done) {known : Field} (hknown : known ∈ done)
    (hname : known.name = field.name) : FieldsAgree (done ++ [field]) ↔
      known.type = field.type ∧ known.isList = field.isList := by
  rw [fieldsAgree_concat hdone]
  refine ⟨fun h => h known hknown hname, fun h other hother hsame => ?_⟩
  have hagree := hdone other hother known hknown (hsame.trans hname.symm)
  exact ⟨hagree.1.trans h.1, hagree.2.trans h.2⟩

theorem nullableOver_concat (known : Field) : nullableOver (done ++ [field]) known =
    if known.name = field.name then
      { nullableOver done known with
        nullable := (nullableOver done known).nullable || field.nullable }
    else nullableOver done known := by
  by_cases hname : known.name = field.name
  · simp [nullableOver, List.any_append, hname]
  · simp [nullableOver, List.any_append, hname, Ne.symm hname]

theorem joinByName_concat_new (h : ∀ known ∈ done, known.name ≠ field.name) :
    joinByName (done ++ [field]) = joinByName done ++ [field] := by
  have hany : done.any (·.name == field.name) = false :=
    List.any_eq_false.2 fun known hknown => by simpa using h known hknown
  unfold joinByName
  rw [firstByName_concat, hany, if_neg Bool.false_ne_true, List.map_append]
  congr 1
  · refine List.map_congr_left fun known hknown => ?_
    rw [nullableOver_concat, if_neg (h known (mem_of_mem_firstByName hknown))]
  · have hnone : done.any (fun other => other.name == field.name && other.nullable) = false :=
      List.any_eq_false.2 fun other hother => by simp [h other hother]
    rw [List.map_singleton, nullableOver_concat, if_pos rfl]
    simp [nullableOver, hnone]

/-- A field of a known name may make the one of that name nullable. -/
theorem joinByName_concat_known (h : ∃ known ∈ done, known.name = field.name) :
    joinByName (done ++ [field]) = (joinByName done).map fun known =>
      if known.name = field.name then { known with nullable := known.nullable || field.nullable }
      else known := by
  have hany : done.any (·.name == field.name) = true := by simpa using h
  unfold joinByName
  rw [firstByName_concat, hany, if_pos rfl, List.append_nil, List.map_map]
  exact List.map_congr_left fun known _ => nullableOver_concat known

variable {merged : List MergedField} {owner : String}

theorem ne_name_of_find?_eq_none (hmerged : merged.map (·.field) = joinByName done)
    (hnew : merged.find? (·.field.name == field.name) = none) :
    ∀ known ∈ done, known.name ≠ field.name := by
  intro known hknown hname
  obtain ⟨first, hfirst, hsame⟩ := exists_first hknown
  have hmem : nullableOver done first ∈ merged.map (·.field) :=
    hmerged ▸ List.mem_map_of_mem hfirst
  obtain ⟨entry, hentry, heq⟩ := List.mem_map.1 hmem
  have hentryName : entry.field.name = field.name := by
    rw [heq]
    exact hsame.trans hname
  exact List.find?_eq_none.1 hnew entry hentry (beq_iff_eq.2 hentryName)

theorem exists_of_find?_eq_some {known : MergedField}
    (hmerged : merged.map (·.field) = joinByName done)
    (hknown : merged.find? (·.field.name == field.name) = some known) :
    ∃ first ∈ done, first.name = field.name ∧ nullableOver done first = known.field := by
  have hmem : known.field ∈ joinByName done :=
    hmerged ▸ List.mem_map_of_mem (List.mem_of_find?_eq_some hknown)
  obtain ⟨first, hfirst, heq⟩ := List.mem_map.1 hmem
  have hname := List.find?_some hknown
  rw [← heq] at hname
  exact ⟨first, mem_of_mem_firstByName hfirst, beq_iff_eq.1 hname, heq⟩

theorem mergeField_outcome (hdone : FieldsAgree done)
    (hmerged : merged.map (·.field) = joinByName done) :
    Outcome (FieldsAgree (done ++ [field])) (·.map (·.field) = joinByName (done ++ [field]))
      (mergeField merged owner field) := by
  unfold mergeField
  split
  · rename_i hnew
    have hout := ne_name_of_find?_eq_none hmerged hnew
    refine ⟨fun _ => ⟨_, rfl, ?_⟩, fun hnot => absurd ?_ hnot⟩
    · rw [joinByName_concat_new hout, ← hmerged, List.map_append, List.map_singleton]
    · exact (fieldsAgree_concat hdone).2 fun known hknown hname => absurd hname (hout known hknown)
  · rename_i known hknown
    obtain ⟨first, hfirst, hname, heq⟩ := exists_of_find?_eq_some hmerged hknown
    have hagree : FieldsAgree (done ++ [field]) ↔
        known.field.type = field.type ∧ known.field.isList = field.isList := by
      rw [fieldsAgree_concat_known hdone hfirst hname, ← heq]
      exact Iff.rfl
    split
    · rename_i hsame
      refine ⟨fun _ => ⟨_, rfl, ?_⟩, fun hnot => absurd (hagree.2 hsame) hnot⟩
      rw [joinByName_concat_known ⟨first, hfirst, hname⟩, ← hmerged, List.map_map, List.map_map]
      refine List.map_congr_left fun entry _ => ?_
      show MergedField.field (if _ then _ else _) = _
      rw [apply_ite MergedField.field]
      rfl
    · rename_i hdiffer
      exact ⟨fun h => absurd (hagree.1 h) hdiffer, fun _ => ⟨_, _, _, _, rfl⟩⟩

/-! ## Merging filters -/

/-- The renamed fields of several filters, one after the other. -/
def renamedFields (table : RenameTable) (variants : List TypeDefinition) : List Field :=
  variants.flatMap fun variant => variant.fields.map (·.renamed table)

theorem incoming_snd (table : RenameTable) (variants : List TypeDefinition) :
    (incoming table variants).map (·.2) = renamedFields table variants := by
  simp only [incoming, renamedFields, List.map_flatMap, List.map_map, Function.comp_def]

/-- Merging filters joins their renamed fields, where those of one name agree. -/
theorem mergeVariants_outcome (table : RenameTable) (base : String)
    (variants : List TypeDefinition) : Outcome (FieldsAgree (renamedFields table variants))
      (· = ⟨base, .input, joinByName (renamedFields table variants),
        variants.findSome? (·.sourceEntity?)⟩) (mergeVariants table base variants) := by
  have hfields : Outcome (FieldsAgree ((incoming table variants).map (·.2)))
      (·.map (·.field) = joinByName ((incoming table variants).map (·.2)))
      (mergeFields table variants) := by
    rw [mergeFields_eq]
    refine Outcome.foldlM (fun done : List (String × Field) => FieldsAgree (done.map (·.2)))
      (fun done (merged : List MergedField) =>
        merged.map (·.field) = joinByName (done.map (·.2))) ?_ ?_ ?_ ?_
    · intro done rest h
      rw [List.map_append] at h
      exact h.of_append
    · intro done pair rest merged _ hdone hmerged
      simp only [List.map_append, List.map_singleton]
      exact mergeField_outcome hdone hmerged
    · intro a ha
      cases ha
    · rfl
  rw [incoming_snd] at hfields
  exact hfields.map fun merged hmerged => by rw [hmerged]

end SchemaLayout.Filters
