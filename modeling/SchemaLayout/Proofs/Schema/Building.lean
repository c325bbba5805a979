import SchemaLayout.Proofs.Names.Entries
import SchemaLayout.Proofs.Schema.Validity

/-!
# Building sets

Types and enums are put into sets in one way (`Inserts`): where the name is free, and only there. So
lists of definitions build a set exactly when no name is listed twice, and they build what they list
(`ofLists_eq_ok_iff`); otherwise building fails over such a name (`collidesOver_of_ofLists`).

**Result.** `Keyed.ofLists_values`: the definitions of a keyed set, listed in the order of their
names, build the set again.
-/
namespace SchemaLayout

namespace DefinitionSet

variable {set : DefinitionSet}

/-! ## Putting definitions in -/

/-- The set with one more type in the place of whatever had its name. -/
def withType (set : DefinitionSet) (definition : TypeDefinition) : DefinitionSet :=
  { set with types := set.types.insert definition.name definition }

/-- The set with one more enum in the place of whatever had its name. -/
def withEnum (set : DefinitionSet) (definition : EnumDefinition) : DefinitionSet :=
  { set with enums := set.enums.insert definition.name definition }

/-- Definitions of one sort are put into a set where their names are free, and only there. -/
structure Inserts (name : α → String) (put : DefinitionSet → α → DefinitionSet)
    (insert : DefinitionSet → α → Except SchemaError DefinitionSet) : Prop where
  free : ∀ {set a}, set.containsName (name a) = false → insert set a = .ok (put set a)
  taken : ∀ {set a}, set.containsName (name a) = true →
    ∃ claimant, insert set a = .error (.nameCollision (name a) (.existing (name a)) claimant)
  containsName_put : ∀ {set a key},
    (put set a).containsName key = true ↔ key = name a ∨ set.containsName key = true

theorem inserts_types : Inserts TypeDefinition.name withType insertType where
  free hfree := if_neg (by rw [hfree]; exact Bool.false_ne_true)
  taken htaken := ⟨_, if_pos htaken⟩
  containsName_put := by simp only [containsName_iff, withType, NameMap.mem_insert, or_assoc,
    implies_true]

theorem inserts_enums : Inserts EnumDefinition.name withEnum insertEnum where
  free hfree := if_neg (by rw [hfree]; exact Bool.false_ne_true)
  taken htaken := ⟨_, if_pos htaken⟩
  containsName_put := by simp only [containsName_iff, withEnum, NameMap.mem_insert, or_left_comm,
    implies_true]

/-- The names of a list are free in a set, and no two of them are the same. -/
def Free (name : α → String) (l : List α) (set : DefinitionSet) : Prop :=
  (l.map name).Nodup ∧ ∀ a ∈ l, set.containsName (name a) = false

namespace Inserts

variable {name : α → String} {put : DefinitionSet → α → DefinitionSet}
  {insert : DefinitionSet → α → Except SchemaError DefinitionSet} (h : Inserts name put insert)
include h

theorem insert_eq_ok_iff {a : α} {next : DefinitionSet} :
    insert set a = .ok next ↔ set.containsName (name a) = false ∧ next = put set a := by
  cases hname : set.containsName (name a) with
  | false => rw [h.free hname, Except.ok.injEq, eq_comm, and_iff_right rfl]
  | true =>
    obtain ⟨claimant, herror⟩ := h.taken hname
    rw [herror]
    simp

theorem free_cons_iff {a : α} {l : List α} :
    Free name (a :: l) set ↔ set.containsName (name a) = false ∧ Free name l (put set a) := by
  have hput : ∀ b, (put set a).containsName (name b) = false ↔
      name b ≠ name a ∧ set.containsName (name b) = false := by
    intro b
    rw [← Bool.not_eq_true, h.containsName_put, not_or, Bool.not_eq_true]
  simp only [Free, List.map_cons, List.nodup_cons, List.mem_map, List.forall_mem_cons, hput,
    not_exists, not_and]
  constructor
  · rintro ⟨⟨hout, hnodup⟩, hfirst, hrest⟩
    exact ⟨hfirst, hnodup, fun b hb => ⟨hout b hb, hrest b hb⟩⟩
  · rintro ⟨hfirst, hnodup, hrest⟩
    exact ⟨⟨fun b hb => (hrest b hb).1, hnodup⟩, hfirst, fun b hb => (hrest b hb).2⟩

/-- Definitions are put in one by one where their names are free, and only there. -/
theorem foldlM_eq_ok_iff {l : List α} {result : DefinitionSet} :
    l.foldlM insert set = .ok result ↔ Free name l set ∧ result = l.foldl put set := by
  induction l generalizing set with
  | nil =>
    have hfree : Free name [] set := ⟨List.nodup_nil, List.forall_mem_nil _⟩
    rw [and_iff_right hfree, List.foldlM_nil, List.foldl_nil, eq_comm]
    exact Except.ok.injEq .. |>.to_iff
  | cons a l ih =>
    simp only [Fallible.foldlM_cons_eq_ok, h.insert_eq_ok_iff, ih, h.free_cons_iff, List.foldl_cons]
    constructor
    · rintro ⟨next, ⟨hfirst, rfl⟩, hrest, rfl⟩
      exact ⟨⟨hfirst, hrest⟩, rfl⟩
    · rintro ⟨⟨hfirst, hrest⟩, rfl⟩
      exact ⟨_, ⟨hfirst, rfl⟩, hrest, rfl⟩

theorem containsName_foldl {l : List α} {key : String} :
    (l.foldl put set).containsName key = true ↔ set.containsName key = true ∨ key ∈ l.map name := by
  induction l generalizing set with
  | nil => simp
  | cons a l ih =>
    rw [List.foldl_cons, ih, h.containsName_put, List.map_cons, List.mem_cons, or_assoc,
      or_left_comm]

theorem foldlM_eq_error {l : List α} {cause : SchemaError}
    (herror : l.foldlM insert set = .error cause) : ∃ done a rest claimant, l = done ++ a :: rest ∧
      (set.containsName (name a) = true ∨ name a ∈ done.map name) ∧
        cause = .nameCollision (name a) (.existing (name a)) claimant := by
  obtain ⟨done, a, rest, reached, rfl, hreached, hlast⟩ := Fallible.foldlM_eq_error herror
  obtain ⟨-, rfl⟩ := h.foldlM_eq_ok_iff.1 hreached
  cases hname : (done.foldl put set).containsName (name a) with
  | false => rw [h.free hname] at hlast; cases hlast
  | true =>
    obtain ⟨claimant, hcause⟩ := h.taken hname
    rw [hcause] at hlast
    cases hlast
    exact ⟨done, a, rest, claimant, rfl, h.containsName_foldl.1 hname, rfl⟩

end Inserts

/-! ## Building from lists -/

/-- The names of the listed definitions. -/
def listedNames (types : List TypeDefinition) (enums : List EnumDefinition) : List String :=
  types.map (·.name) ++ enums.map (·.name)

def listed (types : List TypeDefinition) (enums : List EnumDefinition) : DefinitionSet :=
  ⟨.ofList (types.map fun d => (d.name, d)), .ofList (enums.map fun d => (d.name, d))⟩

theorem foldl_withEnum_foldl_withType (types : List TypeDefinition) (enums : List EnumDefinition) :
    enums.foldl withEnum (types.foldl withType ∅) = listed types enums := by
  have htypes : types.foldl withType ∅ = ⟨types.foldl (fun m d => m.insert d.name d) ∅, ∅⟩ :=
    List.foldl_hom (fun m => (⟨m, ∅⟩ : DefinitionSet)) fun _ _ => rfl
  rw [listed, NameMap.ofList, NameMap.ofList, List.foldl_map, List.foldl_map, htypes]
  exact List.foldl_hom (fun m => (⟨_, m⟩ : DefinitionSet)) fun _ _ => rfl

theorem free_iff_nodup {types : List TypeDefinition} {enums : List EnumDefinition} :
    Free TypeDefinition.name types ∅ ∧ Free EnumDefinition.name enums (types.foldl withType ∅) ↔
      (listedNames types enums).Nodup := by
  have hempty : ∀ name, (∅ : DefinitionSet).containsName name = false := fun _ => rfl
  have htyped : ∀ name, (types.foldl withType ∅).containsName name = false ↔
      name ∉ types.map (·.name) := by
    intro name
    rw [← Bool.not_eq_true, inserts_types.containsName_foldl, hempty,
      or_iff_right Bool.false_ne_true]
  simp only [Free, hempty, htyped, implies_true, and_true, listedNames, List.nodup_append]
  refine and_congr_right fun _ => and_congr_right fun _ => ⟨?_, ?_⟩
  · rintro hout a ha _ hb rfl
    obtain ⟨definition, hmem, rfl⟩ := List.mem_map.1 hb
    exact hout definition hmem ha
  · intro hne definition hmem hname
    exact hne _ hname _ (List.mem_map_of_mem hmem) rfl

/-- Lists of definitions build the set of what they list where no name is listed twice, and no set
where one is. -/
theorem ofLists_eq_ok_iff {types : List TypeDefinition} {enums : List EnumDefinition} :
    ofLists types enums = .ok set ↔ (listedNames types enums).Nodup ∧ set = listed types enums := by
  rw [← foldl_withEnum_foldl_withType, ← free_iff_nodup]
  show (types.foldlM insertType ∅ >>= fun typed => enums.foldlM insertEnum typed) = _ ↔ _
  rw [Fallible.bind_eq_ok]
  simp only [inserts_types.foldlM_eq_ok_iff, inserts_enums.foldlM_eq_ok_iff]
  constructor
  · rintro ⟨typed, ⟨htypes, rfl⟩, henums, rfl⟩
    exact ⟨⟨htypes, henums⟩, rfl⟩
  · rintro ⟨⟨htypes, henums⟩, rfl⟩
    exact ⟨_, ⟨htypes, rfl⟩, henums, rfl⟩

/-- A failure over a name that is listed twice. -/
def CollidesOver (names : List String) (cause : SchemaError) : Prop :=
  ∃ name claimant, cause = .nameCollision name (.existing name) claimant ∧ 2 ≤ names.count name

theorem two_le_count {before after names : List String} {name : String}
    (hnames : names = before ++ name :: after) (hmem : name ∈ before) : 2 ≤ names.count name := by
  have hbefore : 0 < before.count name := List.count_pos_iff.2 hmem
  rw [hnames, List.count_append, List.count_cons_self]
  omega

/-- Building fails over a name that is listed twice. -/
theorem collidesOver_of_ofLists {types : List TypeDefinition} {enums : List EnumDefinition}
    {cause : SchemaError} (h : ofLists types enums = .error cause) :
    CollidesOver (listedNames types enums) cause := by
  have hsplit : (types.foldlM insertType ∅ >>= fun typed => enums.foldlM insertEnum typed)
      = .error cause := h
  rcases Fallible.bind_eq_error.1 hsplit with htypes | ⟨typed, htypes, henums⟩
  · obtain ⟨done, a, rest, claimant, rfl, htaken, rfl⟩ := inserts_types.foldlM_eq_error htypes
    have hnames : listedNames (done ++ a :: rest) enums
        = done.map (·.name) ++ a.name :: listedNames rest enums := by
      rw [listedNames, List.map_append, List.append_assoc]
      rfl
    have hmem : a.name ∈ done.map (·.name) := htaken.resolve_left Bool.false_ne_true
    exact ⟨a.name, claimant, rfl, two_le_count hnames hmem⟩
  · obtain ⟨-, rfl⟩ := inserts_types.foldlM_eq_ok_iff.1 htypes
    obtain ⟨done, a, rest, claimant, rfl, htaken, rfl⟩ := inserts_enums.foldlM_eq_error henums
    have hnames : listedNames types (done ++ a :: rest)
        = listedNames types done ++ a.name :: rest.map (·.name) := by
      rw [listedNames, listedNames, List.map_append, List.append_assoc]
      rfl
    have hmem : a.name ∈ listedNames types done := by
      rw [inserts_types.containsName_foldl] at htaken
      exact List.mem_append.2 (htaken.imp_left fun h => h.resolve_left Bool.false_ne_true)
    exact ⟨a.name, claimant, rfl, two_le_count hnames hmem⟩

/-! ## Listing definitions -/

/-- The definitions of a keyed set, in the order of their names, build it. -/
theorem Keyed.ofLists_values (h : set.Keyed) :
    ofLists set.types.values set.enums.values = .ok set := by
  have hnames : listedNames set.types.values set.enums.values =
      set.types.keys ++ set.enums.keys := by
    rw [listedNames, NameMap.map_values_eq_keys h.types, NameMap.map_values_eq_keys h.enums]
  have hset : listed set.types.values set.enums.values = set := by
    unfold listed
    rw [NameMap.ofList_values fun hget => ⟨h.types hget, rfl⟩,
      NameMap.ofList_values fun hget => ⟨h.enums hget, rfl⟩]
  refine ofLists_eq_ok_iff.2 ⟨?_, hset.symm⟩
  rw [hnames]
  refine List.nodup_append.2 ⟨set.types.nodup_keys, set.enums.nodup_keys, fun a ha b hb heq => ?_⟩
  exact h.disjoint (NameMap.mem_keys_iff.1 ha) (NameMap.mem_keys_iff.1 (heq ▸ hb))

/-! ## Built sets -/

/-- Sets that are built from lists of definitions or by adding definitions. -/
inductive Built : DefinitionSet → Prop where
  | empty : Built ∅
  | ofLists {types : List TypeDefinition} {enums : List EnumDefinition} {set : DefinitionSet}
      (h : ofLists types enums = .ok set) : Built set
  | insertType {set result : DefinitionSet} {definition : TypeDefinition} (hset : Built set)
      (h : set.insertType definition = .ok result) : Built result
  | insertEnum {set result : DefinitionSet} {definition : EnumDefinition} (hset : Built set)
      (h : set.insertEnum definition = .ok result) : Built result

theorem Built.keyed (h : set.Built) : set.Keyed := by
  induction h with
  | empty => exact keyed_empty
  | ofLists h => exact keyed_ofLists h
  | insertType _ h ih => exact ih.insertType h
  | insertEnum _ h ih => exact ih.insertEnum h

end DefinitionSet

end SchemaLayout
