import SchemaLayout.Output.Index
import SchemaLayout.Output.Layout
import SchemaLayout.Output.Verification
import SchemaLayout.Text.Case

/-!
# Assembling the output (specification §4.6)

`Layout.assemble` makes the file tree of a set of definitions: it places every declaration, finds
the file that each reference has to be imported from, adds the indexes and checks the result. Two
declarations have one path only where the layout groups, and no two paths differ by case only.
-/
namespace SchemaLayout

/-- What a set declares: its type definitions, then its enums. -/
def DefinitionSet.declarations (set : DefinitionSet) : List Declaration :=
  set.types.values.map .definition ++ set.enums.values.map .enumeration

namespace Layout

/-- The tree with one more declaration in its file. -/
def placeDeclaration (layout : Layout) (tree : FileTree) (declaration : Declaration) :
    Except OutputError FileTree :=
  let path := layout.pathFor declaration
  let file := (tree.files.get? path).getD (.empty path .declarations)
  match file.declarations.head?.filter fun _ => !layout.groups with
  | some first =>
    .error (.pathCollision path (.declaration first.name) (.declaration declaration.name))
  | none =>
    .ok { tree with
      files := tree.files.insert path (file.declare declaration)
      symbols := tree.symbols.insert declaration.name path }

/-- The tree with every declaration of a set in its file. -/
def place (layout : Layout) (set : DefinitionSet) : Except OutputError FileTree :=
  set.declarations.foldlM layout.placeDeclaration .empty

end Layout

namespace FileTree

/-- A path that differs from an earlier one by case only. -/
def caseCollision? (tree : FileTree) : Option OutputError :=
  (firstRepeat? Text.lower tree.files.keys).map fun (first, second) =>
    .pathCollision (Text.lower second) (.path first) (.path second)

/-! ## Imports -/

/-- Each reference to a name in a file: the declaration and field that it is in, and the name. -/
def fileReferences (file : OutputFile) : List (String × String × String) :=
  file.declarations.flatMap fun declaration =>
    declaration.references.map fun (field, target) => (declaration.name, field, target)

/-- A finding for each reference to a name that no file declares. -/
def unresolvedIn (symbols : NameMap String) (file : OutputFile) : List Finding :=
  (fileReferences file).filterMap fun (definition, field, target) =>
    if symbols.contains target then none
    else some (.unresolvedSymbol ⟨some file.path, some definition, some field⟩ target)

/-- What a file imports: every name that it refers to and another file declares, by that file's
path. -/
def importsOf (symbols : NameMap String) (file : OutputFile) : NameMap NameSet :=
  (fileReferences file).foldl (fun imports (_, _, target) =>
    match symbols.get? target with
    | some path =>
      if path = file.path then imports
      else imports.alter path fun names? => (names?.getD ∅).add target
    | none => imports) ∅

/-- The tree with the imports of every file. -/
def resolveImports (tree : FileTree) : Except OutputError FileTree :=
  let unresolved := tree.files.values.flatMap (unresolvedIn tree.symbols)
  if unresolved ≠ [] then .error (.findings unresolved)
  else .ok { tree with
    files := tree.files.mapValues fun _ file =>
      { file with imports := importsOf tree.symbols file } }

/-- The tree with the specifiers of every file. -/
def fillSpecifiers (tree : FileTree) (extension : String) : FileTree :=
  { tree with
    files := tree.files.mapValues fun _ file =>
      { file with
        specifiers := file.targets.mapValues fun target _ =>
          Path.specifier extension file.path target } }

end FileTree

namespace Layout

/-- The tree with the indexes of the layout. A single file is the root itself. -/
def addIndexes (layout : Layout) (tree : FileTree) : Except OutputError FileTree :=
  if layout.emitSingle then .ok { tree with rootIndex? := some layout.indexFile }
  else (planIndexes tree.files layout.reExport layout.indexFile).map fun files =>
    { tree with files, rootIndex? := rootIndex? layout.reExport layout.indexFile }

/-- Refuses a tree with a fault. -/
def refuse (fault? : Option OutputError) : Except OutputError Unit :=
  match fault? with
  | some fault => .error fault
  | none => .ok ()

/-- The file tree of a set of definitions (specification §4.6). -/
def assemble (layout : Layout) (set : DefinitionSet) : Except OutputError FileTree := do
  let placed ← layout.place set
  refuse placed.caseCollision?
  let resolved ← placed.resolveImports
  let indexed ← layout.addIndexes resolved
  refuse indexed.caseCollision?
  refuse indexed.fault?
  return indexed.fillSpecifiers layout.pattern.extension

end Layout

end SchemaLayout
