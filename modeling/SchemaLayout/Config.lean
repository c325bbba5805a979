import SchemaLayout.Names.Map
import SchemaLayout.Schema.Error
import SchemaLayout.Text.Blank

/-!
# Configuration (specification §6)

What a run does: which passes it makes and by what rules, and how it lays the result out. The
default configuration makes no pass. `RenameRules.conflict?` and `Config.conflict?` find rules that
contradict each other.
-/
namespace SchemaLayout

/-- Which kinds of type definitions may be folded together. -/
inductive FoldScope where
  | none | model | input | all
  deriving DecidableEq, Repr

namespace FoldScope

/-- Whether definitions of a kind may be folded. -/
def includes : FoldScope → TypeKind → Bool
  | .none, _ => false
  | .model, kind => kind == .model
  | .input, kind => kind == .input
  | .all, _ => true

end FoldScope

/-- Which index files are added to the output. -/
inductive ReExportMode where
  /-- No index files. -/
  | none
  /-- An index for each directory. -/
  | directories
  /-- One index at the root for all files. -/
  | single
  /-- An index for each directory and one at the root for those. -/
  | all
  deriving DecidableEq, Repr

namespace ReExportMode

/-- Whether the root gets an index. -/
def hasRootIndex : ReExportMode → Bool
  | .single | .all => true
  | _ => false

/-- Whether directories get indexes. -/
def hasDirectoryIndexes : ReExportMode → Bool
  | .directories | .all => true
  | _ => false

end ReExportMode

/-- How definitions get new names. -/
structure RenameRules where
  /-- Names that no definition may keep. -/
  reserved : List String
  /-- What a reserved name gets appended. -/
  suffix : String
  /-- New names for particular old ones, reserved or not. -/
  overrides : NameMap String
  deriving DecidableEq

namespace RenameRules

/-- Reserves the names of built-in types and of root operations. -/
def default : RenameRules where
  reserved := ["Date", "Error", "Function", "JSON", "Map", "Mutation", "Object", "Promise", "Query",
    "Record", "Set", "Subscription", "Symbol"]
  suffix := "Type"
  overrides := ∅

/-- The conflict of one override with the rest of the rules. -/
def overrideConflict? (rules : RenameRules) (source target : String) : Option RuleConflict :=
  if source = target then some (.overrideToItself source)
  else if rules.overrides.contains target then some (.overrideTargetRenamed target)
  else if rules.reserved.contains target then some (.overrideTargetReserved source target)
  else none

/-- The conflict of one reserved name with the rest of the rules. -/
def reservedConflict? (rules : RenameRules) (name : String) : Option RuleConflict :=
  if rules.overrides.contains name then none
  else if rules.suffix = "" then some (.noSuffix name)
  else if rules.reserved.contains (name ++ rules.suffix) then
    some (.suffixedNameReserved name (name ++ rules.suffix))
  else none

/-- The first reason why a name given by the rules would be renamed again. -/
def conflict? (rules : RenameRules) : Option RuleConflict :=
  (rules.overrides.entries.findSome? fun entry => rules.overrideConflict? entry.1 entry.2)
    <|> rules.reserved.findSome? rules.reservedConflict?

/-- Every old name with its new name: the overrides, then the other reserved names. -/
def replacements (rules : RenameRules) : List (String × String) :=
  rules.overrides.entries
    ++ (rules.reserved.filter (!rules.overrides.contains ·)).map fun name =>
      (name, name ++ rules.suffix)

end RenameRules

/-- What a run does. -/
structure Config where
  /-- Merge the nullable and nested variants of filters. -/
  combineFilters : Bool
  /-- Keep the types of arithmetic update operations. -/
  keepAtomicOperations : Bool
  /-- Rename definitions by the rename rules. -/
  renameTypes : Bool
  /-- Which duplicate definitions are folded together. -/
  foldScope : FoldScope
  /-- The pattern of output paths. -/
  pattern : String
  reExport : ReExportMode
  /-- Put everything into one file. -/
  emitSingle : Bool
  /-- The directory of definitions without a source entity. -/
  sharedDirectory : String
  rename : RenameRules
  deriving DecidableEq

namespace Config

/-- No pass, one file for each definition in a directory for each entity, and all indexes. -/
def default : Config where
  combineFilters := false
  keepAtomicOperations := true
  renameTypes := false
  foldScope := .none
  pattern := "\x7bmodel\x7d/\x7bname\x7d.\x7btype\x7d.ts"
  reExport := .all
  emitSingle := false
  sharedDirectory := "prisma"
  rename := .default

instance : Inhabited Config := ⟨default⟩

/-- Whether a directory name is one path segment that can be entered. -/
def isDirectorySegment (directory : String) : Bool :=
  !(Text.isBlankText directory || directory.toList.any (fun c => c == '/' || c == '\\')
    || directory == "..")

/-- The first contradiction among the options that passes rely on. The rename rules count only when
they are used. -/
def conflict? (config : Config) : Option RuleConflict :=
  if !isDirectorySegment config.sharedDirectory then
    some (.sharedDirectory config.sharedDirectory)
  else if config.renameTypes then config.rename.conflict?
  else none

end Config

end SchemaLayout
