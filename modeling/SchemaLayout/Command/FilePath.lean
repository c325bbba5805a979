/-!
# Paths of files on disk

Parts of a path on disk stand between slashes. Empty parts and parts `.` change nothing, apart from
a `.` at the very beginning, which is kept.
-/
namespace SchemaLayout.FilePath

/-- The parts of a path between slashes. -/
def parts (path : String) : List String := (path.toList.splitOn '/').map String.ofList

/-- Whether a part changes nothing. -/
def isTrivial (part : String) : Bool := part == "" || part == "."

/-- The parts without those at the end that change nothing. -/
def trimmed (parts : List String) : List String :=
  (parts.reverse.dropWhile isTrivial).reverse

/-- The parts of a relative path without those at the end that change nothing; a `.` at the
beginning is kept. -/
def trimmedRelative : List String → List String
  | "." :: rest => "." :: trimmed rest
  | parts => trimmed parts

/-- The directory that a path is in, as it is written there. The root and the empty path are in
none. -/
def parent? (path : String) : Option String :=
  match parts path with
  | "" :: rest@(_ :: _) =>
    match trimmed rest with
    | [] => none
    | own => some ("/" ++ "/".intercalate (trimmed own.dropLast))
  | relative =>
    match trimmedRelative relative with
    | [] => none
    | own => some ("/".intercalate (trimmedRelative own.dropLast))

/-- The path of a name in a directory. -/
def join (directory name : String) : String :=
  if directory = "" || directory.toList.getLast? == some '/' then directory ++ name
  else directory ++ "/" ++ name

end SchemaLayout.FilePath
