import SchemaLayout.Format.SchemaCodec
import SchemaLayout.Proofs.Format.Records
import SchemaLayout.Proofs.Schema.Building

/-!
# Reading definitions

What is written of references, definitions, sets and rename tables is read back, whatever the order
of entries and the dialect. A reference whose kind stands behind its value is kept until the kind is
known, and read in another dialect then.
-/
namespace SchemaLayout

/-! ## Readability -/

namespace Value

theorem areReadable_iff {items : List Value} :
    areReadable items = true ↔ ∀ value ∈ items, value.isReadable = true := by
  induction items with
  | nil => simp [areReadable]
  | cons value items ih => simp [areReadable, ih]

theorem entriesReadable_iff {entries : List (String × Value)} :
    entriesReadable entries = true ↔ ∀ entry ∈ entries, entry.2.isReadable = true := by
  induction entries with
  | nil => simp [entriesReadable]
  | cons entry entries ih =>
    obtain ⟨name, value⟩ := entry
    simp [entriesReadable, ih]

end Value

namespace Arrangement

variable (arrangement : Arrangement)

theorem isReadable_text (s : String) : (arrangement.arrange (.text s)).isReadable = true := by
  rw [arrangement.text, Value.isReadable] <;> simp

theorem isReadable_list {items : List Value}
    (h : ∀ value ∈ items, (arrangement.arrange value).isReadable = true) :
    (arrangement.arrange (.list items)).isReadable = true := by
  rw [arrangement.list, Value.isReadable, Value.areReadable_iff, List.forall_mem_map]
  exact h

theorem isReadable_record {entries : List (String × Value)} (hnames : (entries.map Prod.fst).Nodup)
    (h : ∀ entry ∈ entries, (arrangement.arrange entry.2).isReadable = true) :
    (arrangement.arrange (.record entries)).isReadable = true := by
  obtain ⟨written, hrecord, harranged⟩ := arrangement.exists_arranged hnames
  rw [hrecord, Value.isReadable, Value.entriesReadable_iff]
  intro entry hmem
  obtain ⟨old, hold, rfl⟩ := List.mem_map.1 (harranged.perm.mem_iff.1 hmem)
  exact h old hold

end Arrangement

/-! ## References -/

namespace TypeRef

/-- What holds of a union where it holds of its members holds of every reference. -/
@[elab_as_elim]
theorem induction_members {P : TypeRef → Prop} (scalar : ∀ kind, P (.scalar kind))
    (enumeration : ∀ name, P (.enumeration name)) (definition : ∀ name, P (.definition name))
    (union : ∀ members, (∀ member ∈ members, P member) → P (.union members)) (ref : TypeRef) :
    P ref :=
  @TypeRef.rec P (fun members => ∀ member ∈ members, P member) scalar enumeration definition union
    (List.forall_mem_nil P) (fun _ _ hmember hrest => List.forall_mem_cons.2 ⟨hmember, hrest⟩) ref

theorem encodeAll_eq_map (refs : List TypeRef) : encode.encodeAll refs = refs.map encode := by
  induction refs with
  | nil => rfl
  | cons ref refs ih => rw [encode.encodeAll, ih, List.map_cons]

/-- The reference of a kind that is read from what stands beside the kind. -/
def decodeContent (dialect : Dialect) (content : Value) : RefKind → Option TypeRef
  | .scalar => (Decode.choice dialect ScalarKind.choices content).map .scalar
  | .enumeration => (Decode.text content).map .enumeration
  | .definition => (Decode.text content).map .definition
  | .union => (Decode.list (decode dialect) content).map .union

/-- How a reference is read when its parts are known. -/
theorem decode_of_ofValue? {dialect : Dialect} {value : Value} {parts : WrittenRef} {kind : RefKind}
    (hparts : WrittenRef.ofValue? value = some parts) (hreadable : parts.content.isReadable = true)
    (hkind : parts.refKind? dialect = some kind) :
    ∃ inner, decode dialect value = decodeContent inner parts.content kind := by
  refine ⟨if parts.order = .kindLast then .keptJson else dialect, ?_⟩
  rw [decode]
  split
  · rename_i hnone
    rw [hparts] at hnone
    cases hnone
  · rename_i found hfound
    obtain rfl := Option.some.inj (hparts.symm.trans hfound)
    simp only [hreadable, hkind, Bool.not_true, Bool.and_false, Bool.false_eq_true, if_false]
    cases kind with
    | scalar => rfl
    | enumeration => rfl
    | definition => rfl
    | union =>
      dsimp only
      split
      · rename_i items hitems
        rw [hitems, decodeContent, Decode.list, List.mapM_subtype fun item _ => rfl,
          List.unattach_attach]
      · rename_i hother
        cases hcontent : parts.content with
        | list items => exact absurd hcontent (hother items)
        | _ => rfl

theorem exists_ofValue? (arrangement : Arrangement) (kind : String) (content : Value) :
    ∃ parts, WrittenRef.ofValue? (arrangement.arrange
        (.record [("kind", .text kind), ("value", content)])) = some parts ∧
      parts.content = arrangement.arrange content ∧
      ∀ dialect, parts.refKind? dialect = RefKind.choices.lookup kind := by
  have hnames : (([("kind", .text kind), ("value", content)] : List (String × Value)).map
      Prod.fst).Nodup := (by decide : ["kind", "value"].Nodup)
  obtain ⟨written, hrecord, harranged⟩ := arrangement.exists_arranged hnames
  have hkind : written.lookup "kind" = some (.text kind) :=
    (harranged.lookup "kind").trans (congrArg some (arrangement.text kind))
  have hvalue : written.lookup "value" = some (arrangement.arrange content) :=
    harranged.lookup "value"
  rw [hrecord, WrittenRef.ofValue?, if_pos (harranged.namesOnce _), hkind, hvalue]
  refine ⟨_, rfl, rfl, fun dialect => if_neg ?_⟩
  dsimp only
  split <;> decide

variable (arrangement : Arrangement)

theorem exists_decode_arrange (name : String) (kind : RefKind) {content : Value}
    (hkind : RefKind.choices.lookup name = some kind)
    (hreadable : (arrangement.arrange content).isReadable = true) (dialect : Dialect) :
    ∃ inner, decode dialect (arrangement.arrange
        (.record [("kind", .text name), ("value", content)]))
      = decodeContent inner (arrangement.arrange content) kind := by
  obtain ⟨parts, hparts, hcontent, hchoice⟩ := exists_ofValue? arrangement name content
  rw [← hcontent] at hreadable ⊢
  exact decode_of_ofValue? hparts hreadable ((hchoice dialect).trans hkind)

theorem isReadable_encode (ref : TypeRef) : (arrangement.arrange ref.encode).isReadable = true := by
  have hrecord : ∀ (kind : String) {content : Value},
      (arrangement.arrange content).isReadable = true → (arrangement.arrange
        (.record [("kind", .text kind), ("value", content)])).isReadable = true := by
    intro kind content hcontent
    refine arrangement.isReadable_record (by decide : ["kind", "value"].Nodup) fun entry hmem => ?_
    rcases List.mem_cons.1 hmem with rfl | hmem
    · exact arrangement.isReadable_text kind
    · obtain rfl := List.mem_singleton.1 hmem
      exact hcontent
  induction ref using induction_members with
  | scalar kind => exact hrecord _ (arrangement.isReadable_text _)
  | enumeration name => exact hrecord _ (arrangement.isReadable_text _)
  | definition name => exact hrecord _ (arrangement.isReadable_text _)
  | union members ih =>
    rw [encode, encodeAll_eq_map]
    refine hrecord _ (arrangement.isReadable_list ?_)
    rw [List.forall_mem_map]
    exact ih

/-- References are read back in every dialect. -/
theorem decode_arrange (ref : TypeRef) (dialect : Dialect) :
    decode dialect (arrangement.arrange ref.encode) = some ref := by
  induction ref using induction_members generalizing dialect with
  | scalar kind =>
    obtain ⟨inner, hdecode⟩ := exists_decode_arrange arrangement "scalar" .scalar rfl
      (arrangement.isReadable_text kind.name) dialect
    rw [encode, hdecode, decodeContent, arrangement.choice_arrange]
    cases kind <;> rfl
  | enumeration name =>
    obtain ⟨inner, hdecode⟩ := exists_decode_arrange arrangement "enum" .enumeration rfl
      (arrangement.isReadable_text name) dialect
    rw [encode, hdecode, decodeContent, arrangement.text_arrange, Option.map_some]
  | definition name =>
    obtain ⟨inner, hdecode⟩ := exists_decode_arrange arrangement "type" .definition rfl
      (arrangement.isReadable_text name) dialect
    rw [encode, hdecode, decodeContent, arrangement.text_arrange, Option.map_some]
  | union members ih =>
    have hreadable : (arrangement.arrange (.list (members.map encode))).isReadable = true := by
      refine arrangement.isReadable_list ?_
      rw [List.forall_mem_map]
      exact fun member _ => isReadable_encode arrangement member
    obtain ⟨inner, hdecode⟩ :=
      exists_decode_arrange arrangement "union" .union rfl hreadable dialect
    rw [encode, encodeAll_eq_map, hdecode, decodeContent,
      arrangement.list_arrange fun member hmem => ih member hmem inner, Option.map_some]

end TypeRef

/-! ## Definitions -/

variable (arrangement : Arrangement) (dialect : Dialect)

theorem Field.decode_arrange (field : Field) :
    Field.decode dialect (arrangement.arrange field.encode) = some field := by
  have hnames : Field.parts.Nodup := by decide
  obtain ⟨written, hrecord, harranged⟩ := arrangement.exists_arranged
    (show ([("name", Value.text field.name), ("type", field.type.encode),
      ("nullable", .flag field.nullable), ("isList", .flag field.isList)].map Prod.fst).Nodup
      from hnames)
  rw [Field.encode, hrecord, Field.decode, harranged.fields, Option.bind_eq_bind, Option.bind_some,
    harranged.required rfl, harranged.required rfl, harranged.defaulted rfl,
    harranged.defaulted rfl, arrangement.text_arrange, TypeRef.decode_arrange,
    arrangement.flag_arrange, arrangement.flag_arrange]
  rfl

theorem TypeDefinition.nodup_encodeEntries (definition : TypeDefinition) :
    (definition.encodeEntries.map Prod.fst).Nodup := by
  unfold encodeEntries
  cases definition.sourceEntity? with
  | none => exact (by decide : ["name", "kind", "fields"].Nodup)
  | some entity => exact (by decide : TypeDefinition.parts.Nodup)

theorem EnumDefinition.nodup_encodeEntries (definition : EnumDefinition) :
    (definition.encodeEntries.map Prod.fst).Nodup :=
  (by decide : EnumDefinition.parts.Nodup)

variable {arrangement} {written : List (String × Value)}

/-- A type definition is read back from its entries. -/
theorem TypeDefinition.decode_of_arranged {definition : TypeDefinition}
    (h : Arranged arrangement definition.encodeEntries written) :
    TypeDefinition.decode dialect (.record written) = some definition := by
  have hentity : definition.encodeEntries.lookup "sourceEntity"
      = definition.sourceEntity?.map .text := by
    unfold encodeEntries
    cases definition.sourceEntity? <;> rfl
  have hkind : TypeKind.choices.lookup definition.kind.name = some definition.kind := by
    cases definition.kind <;> rfl
  rw [TypeDefinition.decode, h.fields, Option.bind_eq_bind, Option.bind_some, h.required rfl,
    h.required rfl, h.defaulted rfl, h.optional_text hentity, arrangement.text_arrange,
    arrangement.choice_arrange, hkind,
    arrangement.list_arrange fun field _ => Field.decode_arrange arrangement dialect field]
  rfl

theorem EnumDefinition.decode_of_arranged {definition : EnumDefinition}
    (h : Arranged arrangement definition.encodeEntries written) :
    EnumDefinition.decode dialect (.record written) = some definition := by
  rw [EnumDefinition.decode, h.fields, Option.bind_eq_bind, Option.bind_some, h.required rfl,
    h.defaulted rfl, arrangement.text_arrange,
    arrangement.list_arrange fun value _ => arrangement.text_arrange value]
  rfl

variable (arrangement)

theorem TypeDefinition.decode_arrange (definition : TypeDefinition) :
    TypeDefinition.decode dialect (arrangement.arrange definition.encode) = some definition := by
  obtain ⟨written, hrecord, harranged⟩ :=
    arrangement.exists_arranged definition.nodup_encodeEntries
  rw [encode, hrecord, decode_of_arranged dialect harranged]

theorem EnumDefinition.decode_arrange (definition : EnumDefinition) :
    EnumDefinition.decode dialect (arrangement.arrange definition.encode) = some definition := by
  obtain ⟨written, hrecord, harranged⟩ :=
    arrangement.exists_arranged definition.nodup_encodeEntries
  rw [encode, hrecord, decode_of_arranged dialect harranged]

/-! ## Sets and tables -/

/-- A keyed set is read back: its definitions are, and they build it. -/
theorem DefinitionSet.decode_arrange {set : DefinitionSet} (h : set.Keyed) :
    DefinitionSet.decode dialect (arrangement.arrange set.encode) = some (.ok set) := by
  have hnames : DefinitionSet.parts.Nodup := by decide
  obtain ⟨written, hrecord, harranged⟩ := arrangement.exists_arranged
    (show ([("types", Value.list (set.types.values.map TypeDefinition.encode)),
      ("enums", .list (set.enums.values.map EnumDefinition.encode))].map Prod.fst).Nodup
      from hnames)
  have hlists : decodeLists dialect (.record written)
      = some (set.types.values, set.enums.values) := by
    rw [decodeLists, harranged.fields, Option.bind_eq_bind, Option.bind_some,
      harranged.defaulted rfl, harranged.defaulted rfl,
      arrangement.list_arrange fun definition _ =>
        TypeDefinition.decode_arrange arrangement dialect definition,
      arrangement.list_arrange fun definition _ =>
        EnumDefinition.decode_arrange arrangement dialect definition]
    rfl
  rw [encode, hrecord, decode, hlists]
  exact congrArg some h.ofLists_values

theorem RenameTable.decode_arrange (table : RenameTable) :
    RenameTable.decode dialect (arrangement.arrange table.encode) = some table := by
  have hnames : RenameTable.parts.Nodup := by decide
  obtain ⟨written, hrecord, harranged⟩ := arrangement.exists_arranged
    (show ([("entries", Encode.nameMap Value.text table.entries)].map Prod.fst).Nodup from hnames)
  rw [encode, hrecord, decode, harranged.fields, Option.bind_eq_bind, Option.bind_some,
    harranged.required rfl, arrangement.nameMap_arrange fun name _ => arrangement.text_arrange name]
  rfl

end SchemaLayout
