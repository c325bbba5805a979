import SchemaLayout.Names.Set
import SchemaLayout.Command.FilePath

/-!
# Access to files

`FileAccess` is what the commands need of a file system. `Workspace.access` gives it for a
`Workspace`, a directory that is held as a value.
-/
namespace SchemaLayout

/-- What commands do with files. Texts that cannot be had, for whatever reason, are `none`, and a
flag says whether writing succeeded. -/
structure FileAccess (m : Type → Type) where
  isFile : String → m Bool
  read : String → m (Option String)
  makeDirectories : String → m Bool
  write : String → String → m Bool

/-- A directory with all that is below it, and what is made around it: nothing is known there from
the start apart from the directories that it is in. Directories and files are named by the path
that leads to them without detours. -/
structure Workspace where
  directories : NameSet
  files : NameMap String

namespace Workspace

/-- The workspace with nothing in it. -/
def empty : Workspace := ⟨∅, ∅⟩

/-- What a path leads to, by the names on the way. -/
inductive Location where
  | directory (names : List String)
  | file (names : List String)
  /-- Nothing yet, in a directory that is there. -/
  | free (names : List String)

/-- The path of a list of names. -/
def pathOf (names : List String) : String := "/".intercalate names

/-- The directory that a directory is in. Above the workspace it is named by one more part `..`. -/
def enclosing (names : List String) : List String :=
  if names.all (· == "..") then names ++ [".."] else names.dropLast

/-- Names of files and directories have up to 255 bytes. -/
def isName (part : String) : Bool := part.utf8ByteSize ≤ 255

/-- Paths are not empty, have less than 4096 bytes and no null character. -/
def isPath (path : String) : Bool :=
  path != "" && path.utf8ByteSize < 4096 && path.toList.all (·.toNat != 0)

/-- Follows the parts of a path from a directory. -/
def follow (space : Workspace) (names : List String) : (parts : List String) → Option Location
  | [] => some (.directory names)
  | part :: rest =>
    if FilePath.isTrivial part then follow space names rest
    else if part = ".." then follow space (enclosing names) rest
    else if !isName part then none
    else
      let next := names ++ [part]
      if space.directories.contains (pathOf next) then follow space next rest
      else if rest ≠ [] then none
      else if space.files.contains (pathOf next) then some (.file next)
      else some (.free next)

/-- What a path leads to from the workspace. -/
def locate (space : Workspace) (path : String) : Option Location :=
  if !isPath path || path.toList.head? == some '/' then none
  else space.follow [] (FilePath.parts path)

/-- The text of a file. -/
def read? (space : Workspace) (path : String) : Option String :=
  match space.locate path with
  | some (.file names) => space.files.get? (pathOf names)
  | _ => none

/-- The workspace with a text written to a file, which is made or replaced. -/
def write? (space : Workspace) (path text : String) : Option Workspace :=
  match space.locate path with
  | some (.file names) | some (.free names) =>
    some { space with files := space.files.insert (pathOf names) text }
  | _ => none

/-- The workspace with all directories on the way made. -/
def makeFrom? (space : Workspace) (names : List String) : (parts : List String) → Option Workspace
  | [] => some space
  | part :: rest =>
    if FilePath.isTrivial part then makeFrom? space names rest
    else if part = ".." then makeFrom? space (enclosing names) rest
    else if !isName part then none
    else
      let next := names ++ [part]
      if space.files.contains (pathOf next) then none
      else makeFrom? { space with directories := space.directories.add (pathOf next) } next rest

/-- The workspace with a directory and all directories that it is in. -/
def makeDirectories? (space : Workspace) (path : String) : Option Workspace :=
  if !isPath path || path.toList.head? == some '/' then none
  else space.makeFrom? [] (FilePath.parts path)

/-- The workspace after a change that may fail, and whether it was made. -/
def attempt (change : Workspace → Option Workspace) : StateM Workspace Bool := do
  match change (← get) with
  | some space =>
    set space
    return true
  | none => return false

/-- Access to the files of a workspace. -/
def access : FileAccess (StateM Workspace) where
  isFile path := return ((← get).read? path).isSome
  read path := return (← get).read? path
  makeDirectories path := attempt (·.makeDirectories? path)
  write path text := attempt (·.write? path text)

end Workspace

end SchemaLayout
