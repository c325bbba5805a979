import SchemaLayout.Output.Assembly

/-!
# Generating

`Config.generate` is a whole run: the layout is checked, the passes are made, and the result is laid
out as a file tree. `Generated.summary` is the overview of a run.
-/
namespace SchemaLayout

/-- The output of a run and the report of its passes. -/
structure Generated where
  tree : FileTree
  report : RunReport
  deriving DecidableEq

/-- Runs the passes on a set and lays the result out. A bad layout is reported before any pass. -/
def Config.generate (config : Config) (set : DefinitionSet) : Except OutputError Generated := do
  let layout ← Layout.ofConfig config
  let result ← (config.transform set).mapError .pipeline
  let tree ← layout.assemble result.set
  return { tree, report := result.report }

namespace Generated

/-- The line of a stage. Runs are not timed. -/
def stageLine (report : StageReport) : String :=
  s!"stage {report.stage.name}: {report.typesBefore} -> {report.typesAfter} types, " ++
    s!"{report.enumsBefore} -> {report.enumsAfter} enums (0us)"

/-- The overview of a run: the numbers of the tree, then what the stages did. -/
def summary (generated : Generated) : String :=
  let stats := generated.tree.stats
  "\n".intercalate <|
    [ s!"files:             {stats.files}",
      s!"declaration files: {stats.declarationFiles}",
      s!"index files:       {stats.indexFiles}",
      s!"declarations:      {stats.declarations}",
      s!"imports:           {stats.imports}" ]
    ++ (match generated.tree.rootIndex? with
      | some root => [s!"root index:        {root}"]
      | none => [])
    ++ generated.report.stages.map stageLine
    ++ (if generated.report.folded.isEmpty then []
      else [s!"folded duplicates: {generated.report.folded.size}"])

end Generated

end SchemaLayout
