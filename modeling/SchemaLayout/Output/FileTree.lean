import SchemaLayout.Names.Set
import SchemaLayout.Output.Declaration

/-!
# File trees (specification §3, §4.6)

An `OutputFile` declares definitions, or is an index that only re-exports other files. A `FileTree`
holds the files by path and says which file declares each name.
-/
namespace SchemaLayout

/-- What a file is for. -/
inductive FileRole where
  | declarations | index
  deriving DecidableEq, Repr

/-- A file of the output (specification §3, `VirtualFile`). Imports and re-exports are held by the
path of the other file, with the names that are taken from it; `specifiers` says how each such path
is written in this file. -/
structure OutputFile where
  path : String
  role : FileRole
  exportedNames : NameSet
  declarations : List Declaration
  imports : NameMap NameSet
  reExports : NameMap NameSet
  specifiers : NameMap String
  deriving DecidableEq

namespace OutputFile

/-- A file with nothing in it. -/
def empty (path : String) (role : FileRole) : OutputFile := ⟨path, role, ∅, [], ∅, ∅, ∅⟩

/-- Whether the file is an index. -/
def isIndex (file : OutputFile) : Bool := file.role == .index

/-- Whether the file declares the name. -/
def declares (file : OutputFile) (name : String) : Bool :=
  file.declarations.any (·.name == name)

/-- The file with one more declaration at its end. -/
def declare (file : OutputFile) (declaration : Declaration) : OutputFile :=
  { file with
    exportedNames := file.exportedNames.add declaration.name
    declarations := file.declarations ++ [declaration] }

/-- The file with names of another file exported from it. -/
def reExport (file : OutputFile) (target : String) (names : NameSet) : OutputFile :=
  { file with
    exportedNames := file.exportedNames.union names
    reExports := file.reExports.alter target fun known? => (known?.getD ∅).union names }

/-- The names that the file imports, by the path that they come from. -/
def importedNames (file : OutputFile) : List String := file.imports.values.flatMap (·.toList)

/-- The paths that the file imports or re-exports from. -/
def targets (file : OutputFile) : NameSet :=
  .ofList (file.imports.keys ++ file.reExports.keys)

end OutputFile

/-- The output: files by path, the path of the file that declares each name, and the index at the
root, if there is one. -/
structure FileTree where
  files : NameMap OutputFile
  symbols : NameMap String
  rootIndex? : Option String
  deriving DecidableEq

namespace FileTree

/-- The tree without files. -/
def empty : FileTree := ⟨∅, ∅, none⟩

/-- The files that are no indexes, in the order of paths. -/
def declarationFiles (tree : FileTree) : List OutputFile :=
  tree.files.values.filter (!·.isIndex)

/-- The indexes, in the order of paths. -/
def indexFiles (tree : FileTree) : List OutputFile :=
  tree.files.values.filter (·.isIndex)

end FileTree

/-- Numbers about a tree. -/
structure TreeStats where
  files : Nat
  declarationFiles : Nat
  indexFiles : Nat
  declarations : Nat
  imports : Nat
  deriving DecidableEq, Repr

/-- How many files, declared names and imported names a tree has. -/
def FileTree.stats (tree : FileTree) : TreeStats where
  files := tree.files.size
  declarationFiles := tree.declarationFiles.length
  indexFiles := tree.indexFiles.length
  declarations := tree.symbols.size
  imports := (tree.files.values.flatMap (·.importedNames)).length

end SchemaLayout
