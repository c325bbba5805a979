import SchemaLayout.Output.Error
import SchemaLayout.Output.FileTree

/-!
# Re-export indexes (specification §4.6)

The index of a directory re-exports the files in it and the indexes of the directories in it, so an
index at the root leads to every exported name. Directories are found on the way up from each file,
and their indexes are made from the deepest ones up. `planIndexes` adds the indexes that a mode asks
for.
-/
namespace SchemaLayout

namespace Index

/-- The names that each file exports, by path; indexes do not count. -/
def exports (files : NameMap OutputFile) : NameMap NameSet :=
  .ofList ((files.values.filter (!·.isIndex)).map fun file => (file.path, file.exportedNames))

/-- The known directories with one more and those that it is in. Those of a known directory are
known too, so the way up ends there. -/
def addDirectories (known : NameSet) (directory : String) : NameSet :=
  if _stop : directory = "" ∨ directory ∈ known then known
  else addDirectories (known.add directory) (Path.parent directory)
termination_by directory.length
decreasing_by exact Path.length_parent_lt (not_or.1 _stop).1

/-- The directories below the root that have files in them, directly or not. -/
def directories (exports : NameMap NameSet) : NameSet :=
  exports.keys.foldl (fun known path => addDirectories known (Path.parent path)) ∅

/-- How many slashes there are in the path of a directory. -/
def depth (directory : String) : Nat := directory.toList.count '/'

/-- Directories with those that are in others in front of them. -/
def deepestFirst (directories : List String) : List String :=
  directories.mergeSort fun a b => depth b ≤ depth a

/-- An index that re-exports the given names of the given paths. -/
def ofContents (path : String) (contents : List (String × NameSet)) : OutputFile :=
  contents.foldl (fun file entry => file.reExport entry.1 entry.2) (.empty path .index)

/-- The index of a directory: it re-exports the files in it, then those of the given indexes whose
directories are in it. The root is the empty path. -/
def ofDirectory (exports : NameMap NameSet) (indexName : String) (indexes : NameMap OutputFile)
    (directory : String) : OutputFile :=
  ofContents (Path.join directory indexName)
    (exports.entries.filter (fun entry => Path.parent entry.1 == directory)
      ++ (indexes.entries.filter fun entry => Path.parent entry.1 == directory).map fun entry =>
        (entry.2.path, entry.2.exportedNames))

/-- The indexes with that of one more directory. -/
def addIndex (exports : NameMap NameSet) (indexName : String) (indexes : NameMap OutputFile)
    (directory : String) : NameMap OutputFile :=
  indexes.insert directory (ofDirectory exports indexName indexes directory)

/-- The index of each directory below the root, by directory; an index takes its names from those of
the directories in it. -/
def ofDirectories (exports : NameMap NameSet) (indexName : String) : NameMap OutputFile :=
  (deepestFirst (directories exports).toList).foldl (addIndex exports indexName) ∅

/-- The indexes that a mode asks for, that of the root first. -/
def planned (exports : NameMap NameSet) (indexName : String) : ReExportMode → List OutputFile
  | .none => []
  | .single => [ofContents indexName exports.entries]
  | .directories => (ofDirectories exports indexName).values
  | .all =>
    ofDirectory exports indexName (ofDirectories exports indexName) ""
      :: (ofDirectories exports indexName).values

/-- How messages name a file that is in the way of an index. -/
def occupant (file : OutputFile) : Occupant :=
  match file.exportedNames.first? with
  | some name => .fileDeclaring name
  | none => .file file.path

/-- The files with an index added, whose path must be free. -/
def place (files : NameMap OutputFile) (index : OutputFile) :
    Except OutputError (NameMap OutputFile) :=
  match files.get? index.path with
  | some file => .error (.pathCollision index.path (occupant file) .index)
  | none => .ok (files.insert index.path index)

end Index

/-- The files with the indexes that the mode asks for (specification §4.6, "Re-export"). -/
def planIndexes (files : NameMap OutputFile) (mode : ReExportMode) (indexName : String) :
    Except OutputError (NameMap OutputFile) :=
  (Index.planned (Index.exports files) indexName mode).foldlM Index.place files

/-- The path of the root index, in the modes that have one. -/
def rootIndex? (mode : ReExportMode) (indexName : String) : Option String :=
  if mode.hasRootIndex then some indexName else none

end SchemaLayout
