import SchemaLayout.Proofs.Schema.Building

/-!
# The order of listing

A set is traversed in the order of its names, whatever the order in which its definitions were
listed. So no rule that goes by what comes first depends on how a schema lists its definitions.

**Result.** `ofLists_perm`: the same definitions listed in two ways build the same set, or a name is
listed twice and neither way builds one.
-/
namespace SchemaLayout

/-- Entries of distinct names give one map in whatever order. -/
theorem NameMap.ofList_perm {l r : List (String × α)} (h : l.Perm r)
    (hnodup : (l.map Prod.fst).Nodup) : ofList l = ofList r := by
  have hentries : r.Perm (ofList l).entries := h.symm.trans (perm_ofList hnodup).symm
  exact (ofList_of_perm hentries).symm

theorem NameMap.perm_values_ofList {l : List α} {name : α → String} (hnodup : (l.map name).Nodup) :
    (ofList (l.map fun a => (name a, a))).values.Perm l := by
  have hnames : ((l.map fun a => (name a, a)).map Prod.fst).Nodup := by rwa [List.map_map]
  have hvalues := (perm_ofList hnames).map Prod.snd
  rwa [List.map_map, show (Prod.snd ∘ fun a => (name a, a)) = id from rfl, List.map_id] at hvalues

namespace DefinitionSet

variable {types types' : List TypeDefinition} {enums enums' : List EnumDefinition}

section Reordered

variable (htypes : types.Perm types') (henums : enums.Perm enums')
include htypes henums

theorem perm_listedNames : (listedNames types enums).Perm (listedNames types' enums') :=
  (htypes.map _).append (henums.map _)

theorem listed_perm (h : (listedNames types enums).Nodup) :
    listed types enums = listed types' enums' := by
  obtain ⟨htyped, henumed, -⟩ := List.nodup_append.1 h
  have htypemap : NameMap.ofList (types.map fun d => (d.name, d))
      = NameMap.ofList (types'.map fun d => (d.name, d)) :=
    NameMap.ofList_perm (htypes.map _) (by rwa [List.map_map])
  have henummap : NameMap.ofList (enums.map fun d => (d.name, d))
      = NameMap.ofList (enums'.map fun d => (d.name, d)) :=
    NameMap.ofList_perm (henums.map _) (by rwa [List.map_map])
  unfold listed
  rw [htypemap, henummap]

/-- **Listing order.** Where some name is listed twice among the types and enums together, building
fails for either order, each time over such a name. Otherwise both orders build one set, and it
holds exactly the listed definitions. -/
theorem ofLists_perm :
    ((∃ name, 2 ≤ (listedNames types enums).count name) ∧
      (∃ cause, ofLists types enums = .error cause ∧
        CollidesOver (listedNames types enums) cause) ∧
      ∃ cause, ofLists types' enums' = .error cause ∧
        CollidesOver (listedNames types enums) cause) ∨
    ((∀ name, (listedNames types enums).count name ≤ 1) ∧
      ∃ set, ofLists types enums = .ok set ∧ ofLists types' enums' = .ok set ∧
        set.types.values.Perm types ∧ set.enums.values.Perm enums) := by
  have hnames := perm_listedNames htypes henums
  by_cases hnodup : (listedNames types enums).Nodup
  · obtain ⟨htyped, henumed, -⟩ := List.nodup_append.1 hnodup
    refine Or.inr ⟨List.nodup_iff_count_le_one.1 hnodup, listed types enums,
      ofLists_eq_ok_iff.2 ⟨hnodup, rfl⟩, ?_, NameMap.perm_values_ofList htyped,
      NameMap.perm_values_ofList henumed⟩
    exact ofLists_eq_ok_iff.2 ⟨hnames.nodup_iff.1 hnodup, listed_perm htypes henums hnodup⟩
  · have hfails : ∀ {l : List TypeDefinition} {r : List EnumDefinition},
        (listedNames types enums).Perm (listedNames l r) → ∃ cause, ofLists l r = .error cause ∧
          CollidesOver (listedNames types enums) cause := by
      intro l r hperm
      cases hbuilt : ofLists l r with
      | ok set => exact absurd (hperm.nodup_iff.2 (ofLists_eq_ok_iff.1 hbuilt).1) hnodup
      | error cause =>
        obtain ⟨name, claimant, hcause, htwice⟩ := collidesOver_of_ofLists hbuilt
        exact ⟨cause, rfl, name, claimant, hcause, hperm.count_eq name ▸ htwice⟩
    have htwice : ∃ name, 2 ≤ (listedNames types enums).count name := by
      rw [List.nodup_iff_count_le_one, not_forall] at hnodup
      exact hnodup.imp fun _ hmany => Nat.lt_of_not_le hmany
    exact Or.inl ⟨htwice, hfails (List.Perm.refl _), hfails hnames⟩

end Reordered

def authorWithRole : TypeDefinition :=
  ⟨"Author", .model, [⟨"role", .enumeration "Role", false, false⟩], none⟩

def postByAuthor : TypeDefinition :=
  ⟨"Post", .model, [⟨"author", .definition "Author", true, false⟩], none⟩

theorem ofLists_perm_postFirst :
    [postByAuthor, authorWithRole].Perm [authorWithRole, postByAuthor] ∧
      [(⟨"Role", ["reader"]⟩ : EnumDefinition)].Perm [⟨"Role", ["reader"]⟩] ∧
      ∃ set, ofLists [postByAuthor, authorWithRole] [⟨"Role", ["reader"]⟩] = .ok set ∧
        ofLists [authorWithRole, postByAuthor] [⟨"Role", ["reader"]⟩] = .ok set := by
  have htypes : [postByAuthor, authorWithRole].Perm [authorWithRole, postByAuthor] := .swap ..
  have henums : [(⟨"Role", ["reader"]⟩ : EnumDefinition)].Perm [⟨"Role", ["reader"]⟩] := .refl _
  refine ⟨htypes, henums, ?_⟩
  rcases ofLists_perm htypes henums with ⟨⟨name, htwice⟩, -⟩ | ⟨-, set, hfirst, hsecond, -⟩
  · have honce : (listedNames [postByAuthor, authorWithRole] [⟨"Role", ["reader"]⟩]).Nodup := by
      decide
    exact absurd (List.nodup_iff_count_le_one.1 honce name) (Nat.not_le.2 htwice)
  · exact ⟨set, hfirst, hsecond⟩

end DefinitionSet

end SchemaLayout
