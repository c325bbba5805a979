import SchemaLayout.Format.Decoding
import SchemaLayout.Schema.DefinitionSet

/-!
# The written form of definitions

How type references, definitions, sets of them and rename tables are written as documents, and read
from them. A reference is a record of its `kind` and its `value`; decoding keeps unions as they are
written.
-/
namespace SchemaLayout

/-! ## Type references -/

/-- The kinds of references. -/
inductive RefKind where
  | scalar | enumeration | definition | union
  deriving DecidableEq, Repr

namespace RefKind

/-- The kinds with their written names. -/
def choices : List (String × RefKind) :=
  [("scalar", .scalar), ("enum", .enumeration), ("type", .definition), ("union", .union)]

end RefKind

/-- How the two parts of a written reference stand together. -/
inductive RefOrder where
  /-- In a record, the kind in front. -/
  | kindFirst
  /-- In a record, the kind at the end: the rest has to be kept until it is read. -/
  | kindLast
  /-- In a list, the kind in front. -/
  | listed
  deriving DecidableEq, Repr

/-- A written reference taken apart: what says its kind, and what says the rest. -/
structure WrittenRef where
  kind : Value
  content : Value
  order : RefOrder

/-- The parts of a written reference. -/
def WrittenRef.ofValue? : Value → Option WrittenRef
  | .record entries =>
    if Decode.namesOnce ["kind", "value"] entries then do
      let kind ← entries.lookup "kind"
      let content ← entries.lookup "value"
      let names := entries.map (·.1)
      return ⟨kind, content,
        if names.idxOf "value" < names.idxOf "kind" then .kindLast else .kindFirst⟩
    else none
  | .list [kind, content] => some ⟨kind, content, .listed⟩
  | _ => none

/-- The kind that is said. A list says it plainly, by a name or a place; a record says it as a
choice. -/
def WrittenRef.refKind? (dialect : Dialect) (parts : WrittenRef) : Option RefKind :=
  if parts.order = .listed then Decode.leadingChoice dialect RefKind.choices parts.kind
  else Decode.choice dialect RefKind.choices parts.kind

theorem sizeOf_lookup_lt {entries : List (String × Value)} {name : String} {value : Value}
    (h : entries.lookup name = some value) : sizeOf value < sizeOf entries := by
  induction entries with
  | nil => simp at h
  | cons entry rest ih =>
    rw [List.lookup_cons] at h
    obtain ⟨key, other⟩ := entry
    cases hk : name == key with
    | true =>
      simp only [hk, Option.some.injEq] at h
      subst h
      simp only [List.cons.sizeOf_spec, Prod.mk.sizeOf_spec]
      omega
    | false =>
      simp only [hk] at h
      have := ih h
      simp only [List.cons.sizeOf_spec]
      omega

theorem WrittenRef.sizeOf_content_lt {value : Value} {parts : WrittenRef}
    (h : WrittenRef.ofValue? value = some parts) : sizeOf parts.content < sizeOf value := by
  unfold WrittenRef.ofValue? at h
  split at h
  · split at h
    · simp only [Option.bind_eq_bind, Option.bind_eq_some_iff] at h
      obtain ⟨kind, _, content, hc, he⟩ := h
      have := sizeOf_lookup_lt hc
      simp only [Option.pure_def, Option.some.injEq] at he
      subst he
      simp only [Value.record.sizeOf_spec]
      omega
    · simp at h
  · simp only [Option.some.injEq] at h
    subst h
    simp only [Value.list.sizeOf_spec, List.cons.sizeOf_spec]
    omega
  · simp at h

/-- The scalar kinds with their written names. -/
def ScalarKind.choices : List (String × ScalarKind) :=
  ScalarKind.all.map fun kind => (kind.name, kind)

namespace TypeRef

/-- The written form of a reference. -/
def encode : TypeRef → Value
  | .scalar kind => .record [("kind", .text "scalar"), ("value", .text kind.name)]
  | .enumeration name => .record [("kind", .text "enum"), ("value", .text name)]
  | .definition name => .record [("kind", .text "type"), ("value", .text name)]
  | .union members =>
    .record [("kind", .text "union"), ("value", .list (encodeAll members))]
where
  /-- The written form of each reference. -/
  encodeAll : List TypeRef → List Value
    | [] => []
    | ref :: rest => encode ref :: encodeAll rest

/-- The reference of a written form. What stands in front of the kind has to be readable as a
whole. -/
def decode (dialect : Dialect) (value : Value) : Option TypeRef :=
  match _h : WrittenRef.ofValue? value with
  | none => none
  | some parts =>
    if parts.order = .kindLast && !parts.content.isReadable then none
    else
      let inner := if parts.order = .kindLast then .keptJson else dialect
      match parts.refKind? dialect with
      | none => none
      | some .scalar => (Decode.choice inner ScalarKind.choices parts.content).map .scalar
      | some .enumeration => (Decode.text parts.content).map .enumeration
      | some .definition => (Decode.text parts.content).map .definition
      | some .union =>
        match _hc : parts.content with
        | .list items =>
          (items.attach.mapM fun item => decode inner item.1).map .union
        | _ => none
termination_by sizeOf value
decreasing_by
  have h1 := WrittenRef.sizeOf_content_lt _h
  have h2 := List.sizeOf_lt_of_mem item.2
  rw [_hc, Value.list.sizeOf_spec] at h1
  omega

end TypeRef

/-! ## Definitions -/

namespace Field

/-- The names of the parts of a written field. -/
def parts : List String := ["name", "type", "nullable", "isList"]

/-- The written form of a field. -/
def encode (field : Field) : Value :=
  .record [("name", .text field.name), ("type", field.type.encode),
    ("nullable", .flag field.nullable), ("isList", .flag field.isList)]

/-- The field of a written form. -/
def decode (dialect : Dialect) (value : Value) : Option Field := do
  let entries ← Decode.fields dialect parts value
  return {
    name := ← Decode.required entries "name" Decode.text
    type := ← Decode.required entries "type" (TypeRef.decode dialect)
    nullable := ← Decode.defaulted entries "nullable" Decode.flag false
    isList := ← Decode.defaulted entries "isList" Decode.flag false }

end Field

/-- The kinds of type definitions with their written names. -/
def TypeKind.choices : List (String × TypeKind) :=
  [("model", .model), ("input", .input), ("output", .output)]

namespace TypeDefinition

/-- The names of the parts of a written type definition. -/
def parts : List String := ["name", "kind", "fields", "sourceEntity"]

/-- The entries of the written form of a type definition. -/
def encodeEntries (definition : TypeDefinition) : List (String × Value) :=
  [("name", .text definition.name), ("kind", .text definition.kind.name),
    ("fields", .list (definition.fields.map Field.encode))]
    ++ match definition.sourceEntity? with
      | some entity => [("sourceEntity", .text entity)]
      | none => []

/-- The written form of a type definition. -/
def encode (definition : TypeDefinition) : Value := .record definition.encodeEntries

/-- The type definition of a written form. -/
def decode (dialect : Dialect) (value : Value) : Option TypeDefinition := do
  let entries ← Decode.fields dialect parts value
  return {
    name := ← Decode.required entries "name" Decode.text
    kind := ← Decode.required entries "kind" (Decode.choice dialect TypeKind.choices)
    fields := ← Decode.defaulted entries "fields" (Decode.list (Field.decode dialect)) []
    sourceEntity? := ← Decode.optional entries "sourceEntity" Decode.text }

end TypeDefinition

namespace EnumDefinition

/-- The names of the parts of a written enum. -/
def parts : List String := ["name", "values"]

/-- The entries of the written form of an enum. -/
def encodeEntries (definition : EnumDefinition) : List (String × Value) :=
  [("name", .text definition.name), ("values", .list (definition.values.map .text))]

/-- The written form of an enum. -/
def encode (definition : EnumDefinition) : Value := .record definition.encodeEntries

/-- The enum of a written form. -/
def decode (dialect : Dialect) (value : Value) : Option EnumDefinition := do
  let entries ← Decode.fields dialect parts value
  return {
    name := ← Decode.required entries "name" Decode.text
    values := ← Decode.defaulted entries "values" (Decode.list Decode.text) [] }

end EnumDefinition

namespace DefinitionSet

/-- The names of the parts of a written set. -/
def parts : List String := ["types", "enums"]

/-- The written form of a set: its types and its enums in the order of their names. -/
def encode (set : DefinitionSet) : Value :=
  .record [("types", .list (set.types.values.map TypeDefinition.encode)),
    ("enums", .list (set.enums.values.map EnumDefinition.encode))]

/-- The definitions that are written, in their order. -/
def decodeLists (dialect : Dialect) (value : Value) :
    Option (List TypeDefinition × List EnumDefinition) := do
  let entries ← Decode.fields dialect parts value
  return (
    ← Decode.defaulted entries "types" (Decode.list (TypeDefinition.decode dialect)) [],
    ← Decode.defaulted entries "enums" (Decode.list (EnumDefinition.decode dialect)) [])

/-- The set of a written form, `none` if it does not have the form of a set. Everything is decoded
before names are compared. -/
def decode (dialect : Dialect) (value : Value) : Option (Except SchemaError DefinitionSet) :=
  (decodeLists dialect value).map fun (types, enums) => ofLists types enums

end DefinitionSet

namespace RenameTable

/-- The names of the parts of a written rename table. -/
def parts : List String := ["entries"]

/-- The written form of a rename table. -/
def encode (table : RenameTable) : Value :=
  .record [("entries", Encode.nameMap .text table.entries)]

/-- The rename table of a written form, whether or not its entries could be inserted. -/
def decode (dialect : Dialect) (value : Value) : Option RenameTable := do
  let entries ← Decode.fields dialect parts value
  return ⟨← Decode.required entries "entries" (Decode.nameMap Decode.text)⟩

end RenameTable

end SchemaLayout
