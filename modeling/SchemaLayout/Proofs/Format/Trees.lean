import SchemaLayout.Format.TreeCodec
import SchemaLayout.Proofs.Format.Definitions

/-!
# Reading file trees

A declaration is its definition with one entry more, which is taken out again before the definition
is read. A file leaves out what is empty; that is read as empty.

**Result.** `decode_encode`: every built set, every rename table and every file tree is read back
from what is written of it, and from the same with entries in the order of their names.
-/
namespace SchemaLayout

variable (arrangement : Arrangement) (dialect : Dialect)

/-! ## Declarations -/

namespace Declaration

/-- The tag and the rest of a record that has a tag in front. -/
theorem exists_splitTag? (tag : String) {entries : List (String × Value)}
    (hnames : (entries.map Prod.fst).Nodup) (hout : "declaration" ∉ entries.map Prod.fst) :
    ∃ rest, splitTag? (arrangement.arrange (.record (("declaration", .text tag) :: entries)))
      = some (.text tag, .record rest) ∧ Arranged arrangement entries rest := by
  have hall : ((("declaration", Value.text tag) :: entries).map Prod.fst).Nodup :=
    List.nodup_cons.2 ⟨hout, hnames⟩
  obtain ⟨written, hrecord, harranged⟩ := arrangement.exists_arranged hall
  have htag : written.lookup "declaration" = some (.text tag) :=
    (harranged.lookup "declaration").trans (congrArg some (arrangement.text tag))
  refine ⟨written.filter (·.1 != "declaration"), ?_, ?_⟩
  · rw [hrecord, splitTag?, if_pos (harranged.namesOnce _), htag, Option.map_some]
  · have hkept : (("declaration", Value.text tag) :: entries).filter (·.1 != "declaration")
        = entries := by
      refine (List.filter_cons_of_neg (by simp)).trans (List.filter_eq_self.2 fun entry hmem => ?_)
      exact bne_iff_ne.2 fun heq => hout (heq ▸ List.mem_map_of_mem hmem)
    exact hkept ▸ harranged.filter (· != "declaration")

theorem decode_arrange (declaration : Declaration) :
    decode (arrangement.arrange declaration.encode) = some declaration := by
  cases declaration with
  | definition type =>
    have hout : "declaration" ∉ type.encodeEntries.map Prod.fst := by
      unfold TypeDefinition.encodeEntries
      cases type.sourceEntity? <;> simp
    obtain ⟨rest, hsplit, harranged⟩ :=
      exists_splitTag? arrangement "type" type.nodup_encodeEntries hout
    rw [encode, decode, hsplit, Option.bind_eq_bind, Option.bind_some]
    exact congrArg (Option.map Declaration.definition)
      (TypeDefinition.decode_of_arranged .keptJson harranged)
  | enumeration enum =>
    obtain ⟨rest, hsplit, harranged⟩ := exists_splitTag? arrangement "enum"
      enum.nodup_encodeEntries (by simp [EnumDefinition.encodeEntries])
    rw [encode, decode, hsplit, Option.bind_eq_bind, Option.bind_some]
    exact congrArg (Option.map Declaration.enumeration)
      (EnumDefinition.decode_of_arranged .keptJson harranged)

end Declaration

/-! ## Files -/

theorem Encode.sublist_omitEmpty (empty : Bool) (name : String) (value : Value) :
    ((omitEmpty empty name value).map Prod.fst).Sublist [name] := by
  cases empty with
  | true => exact List.nil_sublist _
  | false => exact List.Sublist.refl _

theorem Encode.lookup_omitEmpty (empty : Bool) (name key : String) (value : Value) :
    (omitEmpty empty name value).lookup key
      = if empty then none else if key = name then some value else none := by
  cases empty with
  | true => rfl
  | false =>
    by_cases h : key = name
    · simp [omitEmpty, h]
    · simp [omitEmpty, List.lookup_cons, beq_eq_false_iff_ne.2 h, h]

namespace OutputFile

theorem nodup_encodeEntries (file : OutputFile) : (file.encodeEntries.map Prod.fst).Nodup := by
  have hparts : OutputFile.parts.Nodup := by decide
  refine List.Nodup.sublist ?_ hparts
  simp only [encodeEntries, List.map_append]
  exact ((((List.Sublist.refl ["path", "role", "exported_names"]).append
    (Encode.sublist_omitEmpty _ "declarations" _)).append
    (Encode.sublist_omitEmpty _ "required_imports" _)).append
    (Encode.sublist_omitEmpty _ "re_exports" _)).append
    (Encode.sublist_omitEmpty _ "specifiers" _)

theorem decode_arrange (file : OutputFile) :
    decode dialect (arrangement.arrange file.encode) = some file := by
  obtain ⟨written, hrecord, harranged⟩ := arrangement.exists_arranged file.nodup_encodeEntries
  have hrole : FileRole.choices.lookup file.role.name = some file.role := by
    cases file.role <;> rfl
  have hdeclarations : Decode.defaulted written "declarations" (Decode.list Declaration.decode) []
      = some file.declarations := by
    refine harranged.defaulted_omitted ?_ (arrangement.list_arrange fun declaration _ =>
      Declaration.decode_arrange arrangement declaration) List.isEmpty_iff.1
    simp [encodeEntries, List.lookup_cons, List.lookup_append, Encode.lookup_omitEmpty]
  have himports : Decode.defaulted written "required_imports" (Decode.nameMap Decode.nameSet) ∅
      = some file.imports := by
    refine harranged.defaulted_omitted ?_ (arrangement.nameMap_arrange fun names _ =>
      arrangement.nameSet_arrange names) NameMap.isEmpty_iff.1
    simp [encodeEntries, List.lookup_cons, List.lookup_append, Encode.lookup_omitEmpty]
  have hreExports : Decode.defaulted written "re_exports" (Decode.nameMap Decode.nameSet) ∅
      = some file.reExports := by
    refine harranged.defaulted_omitted ?_ (arrangement.nameMap_arrange fun names _ =>
      arrangement.nameSet_arrange names) NameMap.isEmpty_iff.1
    simp [encodeEntries, List.lookup_cons, List.lookup_append, Encode.lookup_omitEmpty]
  have hspecifiers : Decode.defaulted written "specifiers" (Decode.nameMap Decode.text) ∅
      = some file.specifiers := by
    refine harranged.defaulted_omitted ?_ (arrangement.nameMap_arrange fun path _ =>
      arrangement.text_arrange path) NameMap.isEmpty_iff.1
    simp [encodeEntries, List.lookup_cons, List.lookup_append, Encode.lookup_omitEmpty]
  rw [encode, hrecord, decode, harranged.fields, Option.bind_eq_bind, Option.bind_some,
    harranged.required rfl, harranged.required rfl, harranged.required rfl,
    arrangement.text_arrange, arrangement.choice_arrange, hrole, arrangement.nameSet_arrange,
    hdeclarations, himports, hreExports, hspecifiers]
  rfl

end OutputFile

/-! ## Trees -/

namespace FileTree

theorem nodup_encodeEntries (tree : FileTree) : (tree.encodeEntries.map Prod.fst).Nodup := by
  unfold encodeEntries
  cases tree.rootIndex? with
  | none => exact (by decide : ["files", "symbols"].Nodup)
  | some root => exact (by decide : FileTree.parts.Nodup)

theorem decode_arrange (tree : FileTree) :
    decode dialect (arrangement.arrange tree.encode) = some tree := by
  obtain ⟨written, hrecord, harranged⟩ := arrangement.exists_arranged tree.nodup_encodeEntries
  have hroot : tree.encodeEntries.lookup "root_index" = tree.rootIndex?.map .text := by
    unfold encodeEntries
    cases tree.rootIndex? <;> rfl
  rw [encode, hrecord, decode, harranged.fields, Option.bind_eq_bind, Option.bind_some,
    harranged.required rfl, harranged.required rfl, harranged.optional_text hroot,
    arrangement.nameMap_arrange fun file _ => OutputFile.decode_arrange arrangement dialect file,
    arrangement.nameMap_arrange fun path _ => arrangement.text_arrange path]
  rfl

end FileTree

/-- **Decoding undoes encoding.** Every set that is built from lists of definitions or by adding
them, every rename table and every file tree is read from what is written of it, in JSON as in the
other dialects. So it is when the entries of all records are put in the order of their names. -/
theorem decode_encode (dialect : Dialect) :
    (∀ {set : DefinitionSet}, set.Built →
      DefinitionSet.decode dialect set.encode = some (.ok set) ∧
      DefinitionSet.decode dialect set.encode.canonical = some (.ok set)) ∧
    (∀ table : RenameTable, RenameTable.decode dialect table.encode = some table ∧
      RenameTable.decode dialect table.encode.canonical = some table) ∧
    ∀ tree : FileTree, FileTree.decode dialect tree.encode = some tree ∧
      FileTree.decode dialect tree.encode.canonical = some tree :=
  ⟨fun hset => ⟨DefinitionSet.decode_arrange .asWritten dialect hset.keyed,
      DefinitionSet.decode_arrange .byName dialect hset.keyed⟩,
    fun table => ⟨RenameTable.decode_arrange .asWritten dialect table,
      RenameTable.decode_arrange .byName dialect table⟩,
    fun tree => ⟨FileTree.decode_arrange .asWritten dialect tree,
      FileTree.decode_arrange .byName dialect tree⟩⟩

/-- An input with a union in a union and an entity. -/
def nestedUnionInput : TypeDefinition :=
  ⟨"PostInput", .input, [⟨"id", .union [.union [.scalar .int, .definition "PostInput"],
    .enumeration "Role"], true, false⟩], some "Post"⟩

def nestedUnionSet : DefinitionSet :=
  ⟨.ofList [("PostInput", nestedUnionInput)], .ofList [("Role", ⟨"Role", ["ADMIN"]⟩)]⟩

theorem decode_encode_nestedUnion : nestedUnionSet.Built ∧
    DefinitionSet.decode .json nestedUnionSet.encode.canonical = some (.ok nestedUnionSet) := by
  have htype : DefinitionSet.insertType ∅ nestedUnionInput
      = .ok ⟨.ofList [("PostInput", nestedUnionInput)], ∅⟩ := rfl
  have henum : DefinitionSet.insertEnum ⟨.ofList [("PostInput", nestedUnionInput)], ∅⟩
      ⟨"Role", ["ADMIN"]⟩ = .ok nestedUnionSet := rfl
  have hbuilt : nestedUnionSet.Built :=
    (DefinitionSet.Built.empty.insertType htype).insertEnum henum
  exact ⟨hbuilt, ((decode_encode .json).1 hbuilt).2⟩

end SchemaLayout
