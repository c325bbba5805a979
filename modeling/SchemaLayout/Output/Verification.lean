import SchemaLayout.Output.Error
import SchemaLayout.Output.FileTree
import SchemaLayout.Output.Graph

/-!
# Verification of re-exports (specification §4.6)

`FileTree.fault?` checks the re-exports of a tree: every re-exported file is there, indexes do not
re-export each other in a cycle, and the root index leads to every file that declares something.
-/
namespace SchemaLayout

namespace FileTree

/-- Each re-export of an index, as the paths of the index and of the other file. -/
def reExports (tree : FileTree) : List (String × String) :=
  tree.indexFiles.flatMap fun file => file.reExports.keys.map (file.path, ·)

/-- The graph of re-exports between files of the tree. -/
def reExportGraph (tree : FileTree) : Graph where
  nodes := tree.files.keys
  edges := tree.reExports.filter fun edge =>
    tree.files.contains edge.1 && tree.files.contains edge.2

/-- A finding for each re-export of a file that is not in the tree. -/
def missingTargets (tree : FileTree) : List Finding :=
  (tree.reExports.filter fun edge =>
    tree.files.contains edge.1 && !tree.files.contains edge.2).map fun edge =>
      .missingTarget ⟨some edge.1, none, none⟩ edge.2

/-- The first file with declarations, or the root itself, that is not reached from the root. -/
def unreachable? (tree : FileTree) (root : String) : Option OutputError :=
  if tree.files.contains root then
    let reached := tree.reExportGraph.reachable root
    (tree.declarationFiles.find? (!reached.contains ·.path)).map fun file =>
      .unreachable (file.exportedNames.first?.getD "") file.path root
  else some (.unreachable "" root root)

/-- The first fault of the re-exports: missing files, then a cycle, then files not reached
(specification §4.6, "Invariants"). -/
def fault? (tree : FileTree) : Option OutputError :=
  if tree.missingTargets ≠ [] then some (.findings tree.missingTargets)
  else if tree.reExportGraph.isCyclic then
    some (.indexCycle (tree.reExportGraph.cycleName?.getD ""))
  else tree.rootIndex?.bind tree.unreachable?

/-- Refuses a tree whose re-exports have a fault. -/
def verify (tree : FileTree) : Except OutputError Unit :=
  match tree.fault? with
  | some fault => .error fault
  | none => .ok ()

end FileTree

end SchemaLayout
