/-!
# Findings

Faults of an output tree that are collected and reported together: names that no file declares, and
re-exports of files that are not there. A `Findings` collector fills in where it is at work;
`Findings.summary` words the collection by category.
-/
namespace SchemaLayout

/-- Where a finding was made. -/
structure Location where
  file? : Option String
  definition? : Option String
  field? : Option String
  deriving DecidableEq, Repr

namespace Location

/-- How messages name a location. -/
def text (location : Location) : String :=
  match location.file?, location.definition?, location.field? with
  | some file, some definition, some field => s!"{file}:{definition}.{field}"
  | some file, some definition, none => s!"{file}:{definition}"
  | some file, none, some field => s!"{file}:.{field}"
  | some file, none, none => file
  | none, some definition, some field => s!"{definition}.{field}"
  | none, some definition, none => definition
  | none, none, some field => s!".{field}"
  | none, none, none => "<unknown location>"

end Location

/-- What kind of fault was found. -/
inductive FindingCategory where
  | unresolvedSymbol | missingTarget
  deriving DecidableEq, Repr

namespace FindingCategory

/-- The heading of a category. -/
def text : FindingCategory → String
  | .unresolvedSymbol => "UNRESOLVED_SYMBOL"
  | .missingTarget => "MISSING_TARGET"

/-- The categories in the order of the summary. -/
def all : List FindingCategory := [.unresolvedSymbol, .missingTarget]

end FindingCategory

/-- One fault of the output. -/
structure Finding where
  category : FindingCategory
  location : Location
  message : String
  deriving DecidableEq, Repr

namespace Finding

/-- A name that is not declared in any file. -/
def unresolvedSymbol (location : Location) (name : String) : Finding :=
  ⟨.unresolvedSymbol, location, s!"'{name}' is not declared in any output file"⟩

/-- A re-exported path that is not in the tree. -/
def missingTarget (location : Location) (path : String) : Finding :=
  ⟨.missingTarget, location, s!"re-export target '{path}' does not exist"⟩

/-- The line of a finding. -/
def text (finding : Finding) : String :=
  s!"[{finding.category.text}] at {finding.location.text}: {finding.message}"

/-! ## Summaries -/

/-- How many findings of a category are listed one by one. -/
def listed : Nat := 10

/-- The lines of one category; none without findings. -/
def categoryLines (findings : List Finding) (category : FindingCategory) : List String :=
  match findings.filter (·.category == category) with
  | [] => []
  | found =>
    [s!"## {category.text} ({found.length} errors):"]
      ++ (found.take listed).map (fun finding => "  - " ++ finding.text)
      ++ (if listed < found.length then [s!"  ... and {found.length - listed} more"] else [])
      ++ [""]

/-- The report of a list of findings. -/
def summary (findings : List Finding) : String :=
  if findings.isEmpty then "No errors"
  else "\n".intercalate ([s!"Found {findings.length} error(s):", ""]
    ++ FindingCategory.all.flatMap (categoryLines findings))

end Finding

/-- Findings made so far, with the file and definition at work. -/
structure Findings where
  list : List Finding
  file? : Option String
  definition? : Option String

namespace Findings

/-- No findings and no place. -/
def empty : Findings := ⟨[], none, none⟩

/-- Moves on to a file. -/
def enterFile (findings : Findings) (file : String) : Findings :=
  { findings with file? := some file }

/-- Moves on to a definition. -/
def enterDefinition (findings : Findings) (name : String) : Findings :=
  { findings with definition? := some name }

/-- Leaves the definition. -/
def leaveDefinition (findings : Findings) : Findings :=
  { findings with definition? := none }

/-- Adds a finding; parts of its location that are open are where the collector is. -/
def add (findings : Findings) (finding : Finding) : Findings :=
  { findings with
    list := findings.list ++ [{ finding with
      location := { finding.location with
        file? := finding.location.file? <|> findings.file?
        definition? := finding.location.definition? <|> findings.definition? } }] }

end Findings

end SchemaLayout
