import SchemaLayout.Output.Finding
import SchemaLayout.Output.Pattern
import SchemaLayout.Pipeline

/-!
# Output errors (specification §7)

Why no output tree is made. An error of the schema or of the pipeline is passed on as it is;
`OutputError.message` words all of them.
-/
namespace SchemaLayout

/-- What claims a path. -/
inductive Occupant where
  | declaration (name : String)
  | path (path : String)
  | fileDeclaring (name : String)
  | file (path : String)
  | index
  deriving DecidableEq, Repr

namespace Occupant

/-- How messages name it. -/
def text : Occupant → String
  | .declaration name => name
  | .path own => own
  | .fileDeclaring name => s!"file declaring '{name}'"
  | .file own => s!"file '{own}'"
  | .index => "re-export index"

end Occupant

/-- Why no output tree is made. -/
inductive OutputError where
  | schema (cause : SchemaError)
  | pipeline (cause : PipelineError)
  | badPattern (pattern : String) (fault : PatternFault)
  /-- Two files would have one path, or paths that differ by case only. -/
  | pathCollision (path : String) (first second : Occupant)
  /-- The root index does not lead to a file; without an index there is no name. -/
  | unreachable (name path root : String)
  | indexCycle (path : String)
  | findings (list : List Finding)
  deriving DecidableEq

namespace OutputError

/-- The wording of an error. -/
def message : OutputError → String
  | .schema cause => cause.message
  | .pipeline cause => cause.message
  | .badPattern pattern fault => s!"Invalid output pattern '{pattern}': {fault.text}"
  | .pathCollision path first second =>
    s!"Path collision at '{path}': '{first.text}' and '{second.text}'"
  | .unreachable name path root => s!"'{name}' in '{path}' is not reachable from '{root}'"
  | .indexCycle path => s!"Index files re-export each other in a cycle through '{path}'"
  | .findings list => s!"Batch errors ({list.length} total):\n{Finding.summary list}"

end OutputError

end SchemaLayout
