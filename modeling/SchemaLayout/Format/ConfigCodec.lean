import SchemaLayout.Config
import SchemaLayout.Format.Decoding

/-!
# The written form of configurations

A configuration is written as a structure all of whose parts have defaults. Entries that are no
parts are refused.
-/
namespace SchemaLayout

/-- The scopes of folding with their written names. -/
def FoldScope.choices : List (String × FoldScope) :=
  [("none", .none), ("model", .model), ("input", .input), ("all", .all)]

/-- The written name of a scope. -/
def FoldScope.name : FoldScope → String
  | .none => "none"
  | .model => "model"
  | .input => "input"
  | .all => "all"

/-- The re-export modes with their written names. -/
def ReExportMode.choices : List (String × ReExportMode) :=
  [("none", .none), ("directories", .directories), ("single", .single), ("all", .all)]

/-- The written name of a re-export mode. -/
def ReExportMode.name : ReExportMode → String
  | .none => "none"
  | .directories => "directories"
  | .single => "single"
  | .all => "all"

namespace RenameRules

/-- The names of the parts of written rename rules. -/
def parts : List String := ["reserved", "suffix", "overrides"]

/-- The written form of rename rules. -/
def encode (rules : RenameRules) : Value :=
  .record [("reserved", .list (rules.reserved.map .text)), ("suffix", .text rules.suffix),
    ("overrides", Encode.nameMap .text rules.overrides)]

/-- The rename rules of a written form. -/
def decode (dialect : Dialect) (value : Value) : Option RenameRules := do
  let entries ← Decode.closedFields dialect parts value
  return {
    reserved := ← Decode.defaulted entries "reserved" (Decode.list Decode.text) default.reserved
    suffix := ← Decode.defaulted entries "suffix" Decode.text default.suffix
    overrides :=
      ← Decode.defaulted entries "overrides" (Decode.nameMap Decode.text) default.overrides }

end RenameRules

namespace Config

/-- The names of the parts of a written configuration. -/
def parts : List String :=
  ["combine_scalar_filters", "atomic_number_operations", "rename_types", "remove_duplicate_types",
    "output_file_pattern", "re_export", "emit_single", "shared_directory", "rename"]

/-- The written form of a configuration. -/
def encode (config : Config) : Value :=
  .record [("combine_scalar_filters", .flag config.combineFilters),
    ("atomic_number_operations", .flag config.keepAtomicOperations),
    ("rename_types", .flag config.renameTypes),
    ("remove_duplicate_types", .text config.foldScope.name),
    ("output_file_pattern", .text config.pattern),
    ("re_export", .text config.reExport.name),
    ("emit_single", .flag config.emitSingle),
    ("shared_directory", .text config.sharedDirectory),
    ("rename", config.rename.encode)]

/-- The configuration of a written form. -/
def decode (dialect : Dialect) (value : Value) : Option Config := do
  let entries ← Decode.closedFields dialect parts value
  return {
    combineFilters :=
      ← Decode.defaulted entries "combine_scalar_filters" Decode.flag default.combineFilters
    keepAtomicOperations :=
      ← Decode.defaulted entries "atomic_number_operations" Decode.flag default.keepAtomicOperations
    renameTypes := ← Decode.defaulted entries "rename_types" Decode.flag default.renameTypes
    foldScope :=
      ← Decode.defaulted entries "remove_duplicate_types" (Decode.choice dialect FoldScope.choices)
        default.foldScope
    pattern := ← Decode.defaulted entries "output_file_pattern" Decode.text default.pattern
    reExport :=
      ← Decode.defaulted entries "re_export" (Decode.choice dialect ReExportMode.choices)
        default.reExport
    emitSingle := ← Decode.defaulted entries "emit_single" Decode.flag default.emitSingle
    sharedDirectory :=
      ← Decode.defaulted entries "shared_directory" Decode.text default.sharedDirectory
    rename := ← Decode.defaulted entries "rename" (RenameRules.decode dialect) default.rename }

end Config

end SchemaLayout
