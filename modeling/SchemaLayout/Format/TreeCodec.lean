import SchemaLayout.Format.SchemaCodec
import SchemaLayout.Generator

/-!
# The written form of output

How declarations, files and file trees are written as documents and read from them, and how the
report of a run is written.
-/
namespace SchemaLayout

namespace Declaration

/-- The written form of a declaration: its definition with an entry for what it declares. -/
def encode : Declaration → Value
  | .definition type => .record (("declaration", .text "type") :: type.encodeEntries)
  | .enumeration enum => .record (("declaration", .text "enum") :: enum.encodeEntries)

/-- What says which declaration is written, and the rest. -/
def splitTag? : Value → Option (Value × Value)
  | .record entries =>
    if Decode.namesOnce ["declaration"] entries then
      (entries.lookup "declaration").map fun tag =>
        (tag, .record (entries.filter (·.1 != "declaration")))
    else none
  | .list (tag :: rest) => some (tag, .list rest)
  | _ => none

/-- The declaration of a written form. The definition is kept until it is known which one it is. -/
def decode (value : Value) : Option Declaration := do
  let (tag, rest) ← splitTag? value
  match tag with
  | .text "type" => (TypeDefinition.decode .keptJson rest).map .definition
  | .text "enum" => (EnumDefinition.decode .keptJson rest).map .enumeration
  | _ => none

end Declaration

namespace FileRole

/-- The written name of a role. -/
def name : FileRole → String
  | .declarations => "declarations"
  | .index => "index"

/-- The roles with their written names. -/
def choices : List (String × FileRole) := [("declarations", .declarations), ("index", .index)]

end FileRole

namespace OutputFile

/-- The names of the parts of a written file. -/
def parts : List String :=
  ["path", "role", "exported_names", "declarations", "required_imports", "re_exports", "specifiers"]

/-- The entries of the written form of a file; empty parts behind the exported names are left
out. -/
def encodeEntries (file : OutputFile) : List (String × Value) :=
  [("path", .text file.path), ("role", .text file.role.name),
    ("exported_names", Encode.nameSet file.exportedNames)]
  ++ Encode.omitEmpty file.declarations.isEmpty "declarations"
    (.list (file.declarations.map Declaration.encode))
  ++ Encode.omitEmpty file.imports.isEmpty "required_imports"
    (Encode.nameMap Encode.nameSet file.imports)
  ++ Encode.omitEmpty file.reExports.isEmpty "re_exports"
    (Encode.nameMap Encode.nameSet file.reExports)
  ++ Encode.omitEmpty file.specifiers.isEmpty "specifiers" (Encode.nameMap .text file.specifiers)

/-- The written form of a file. -/
def encode (file : OutputFile) : Value := .record file.encodeEntries

/-- The file of a written form. -/
def decode (dialect : Dialect) (value : Value) : Option OutputFile := do
  let entries ← Decode.fields dialect parts value
  return {
    path := ← Decode.required entries "path" Decode.text
    role := ← Decode.required entries "role" (Decode.choice dialect FileRole.choices)
    exportedNames := ← Decode.required entries "exported_names" Decode.nameSet
    declarations := ← Decode.defaulted entries "declarations" (Decode.list Declaration.decode) []
    imports := ← Decode.defaulted entries "required_imports" (Decode.nameMap Decode.nameSet) ∅
    reExports := ← Decode.defaulted entries "re_exports" (Decode.nameMap Decode.nameSet) ∅
    specifiers := ← Decode.defaulted entries "specifiers" (Decode.nameMap Decode.text) ∅ }

end OutputFile

namespace FileTree

/-- The names of the parts of a written tree. -/
def parts : List String := ["files", "symbols", "root_index"]

/-- The entries of the written form of a tree. -/
def encodeEntries (tree : FileTree) : List (String × Value) :=
  [("files", Encode.nameMap OutputFile.encode tree.files),
    ("symbols", Encode.nameMap .text tree.symbols)]
  ++ match tree.rootIndex? with
    | some root => [("root_index", .text root)]
    | none => []

/-- The written form of a tree. -/
def encode (tree : FileTree) : Value := .record tree.encodeEntries

/-- The tree of a written form. -/
def decode (dialect : Dialect) (value : Value) : Option FileTree := do
  let entries ← Decode.fields dialect parts value
  return {
    files := ← Decode.required entries "files" (Decode.nameMap (OutputFile.decode dialect))
    symbols := ← Decode.required entries "symbols" (Decode.nameMap Decode.text)
    rootIndex? := ← Decode.optional entries "root_index" Decode.text }

end FileTree

/-! ## Reports -/

/-- The written form of a stage's report. Runs are not timed, so durations are zero. -/
def StageReport.encode (report : StageReport) : Value :=
  .record [("stage", .text report.stage.name), ("duration_us", Encode.number 0),
    ("types_before", Encode.number report.typesBefore),
    ("types_after", Encode.number report.typesAfter),
    ("enums_before", Encode.number report.enumsBefore),
    ("enums_after", Encode.number report.enumsAfter)]

/-- The written form of a run's report. -/
def RunReport.encode (report : RunReport) : Value :=
  .record [("stages", .list (report.stages.map StageReport.encode)),
    ("folded", report.folded.encode), ("duration_us", Encode.number 0)]

/-- The written form of a run's output. -/
def Generated.encode (generated : Generated) : Value :=
  .record [("tree", generated.tree.encode), ("report", generated.report.encode)]

end SchemaLayout
