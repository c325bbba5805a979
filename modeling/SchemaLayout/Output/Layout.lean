import SchemaLayout.Output.Error

/-!
# Layouts (specification §4.6)

A `Layout` says where declarations and indexes go. `Layout.ofConfig` takes it from a configuration
and refuses a pattern that would name every file like an index.
-/
namespace SchemaLayout

/-- Where files go. -/
structure Layout where
  pattern : Pattern
  reExport : ReExportMode
  emitSingle : Bool
  sharedDirectory : String
  /-- The name of index files, and of the only file when everything is put into one. -/
  indexFile : String
  deriving DecidableEq

namespace Layout

/-- The layout that a configuration asks for. With a single file there is nothing to re-export. -/
def ofConfig (config : Config) : Except OutputError Layout :=
  match Pattern.parse config.pattern with
  | .error fault => .error (.badPattern config.pattern fault)
  | .ok pattern =>
    let reExport := if config.emitSingle then .none else config.reExport
    if reExport ≠ .none ∧ pattern.literalFileName? = some pattern.indexFile then
      .error (.schema (.conflict (.everyFileAnIndex pattern.text pattern.indexFile)))
    else
      .ok
        { pattern
          reExport
          emitSingle := config.emitSingle
          sharedDirectory := config.sharedDirectory
          indexFile := pattern.indexFile }

/-- Whether declarations may share a file: all are in one, or the pattern does not have their
names. -/
def groups (layout : Layout) : Bool :=
  layout.emitSingle || !layout.pattern.uses .name

/-- The path of a declaration's file. -/
def pathFor (layout : Layout) (declaration : Declaration) : String :=
  if layout.emitSingle then layout.indexFile
  else layout.pattern.render declaration layout.sharedDirectory

end Layout

end SchemaLayout
