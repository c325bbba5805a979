import SchemaLayout.Output.Declaration
import SchemaLayout.Output.Path
import SchemaLayout.Text.Blank
import SchemaLayout.Text.Kebab

/-!
# Output patterns (specification §4.6)

A pattern is literal text with tokens in braces, from which the path of a declaration is rendered.
`Pattern.parse` reads a pattern and `Pattern.text` writes it back. A pattern is a relative path
without empty, `.` and `..` parts; braces stand around tokens only.
-/
namespace SchemaLayout

/-- What a pattern takes from a declaration. -/
inductive Token where
  /-- The name in kebab case, without the suffix of its kind. -/
  | name
  /-- The kind. -/
  | kind
  /-- The plural of the kind. -/
  | kindPlural
  /-- The source entity in kebab case, or the shared directory. -/
  | model
  deriving DecidableEq, Repr

namespace Token

/-- Every token. -/
def all : List Token := [.name, .kind, .kindPlural, .model]

/-- The text between the braces. -/
def text : Token → String
  | .name => "name"
  | .kind => "type"
  | .kindPlural => "plural.type"
  | .model => "model"

/-- The token of a text between braces. -/
def ofText? (text : String) : Option Token := all.find? (·.text == text)

end Token

/-- A piece of a pattern. -/
inductive Segment where
  | literal (text : String)
  | token (which : Token)
  deriving DecidableEq, Repr

namespace Segment

/-- The written form of a piece. -/
def text : Segment → String
  | .literal text => text
  | .token which => "\x7b" ++ which.text ++ "\x7d"

end Segment

/-- A pattern of output paths. -/
structure Pattern where
  segments : List Segment
  deriving DecidableEq, Repr

/-- Why a text is no pattern. -/
inductive PatternFault where
  | blank
  | absolute
  | backslash
  | badPart (part : String)
  | unknownToken (text : String)
  | unbalancedBrace
  deriving DecidableEq, Repr

namespace PatternFault

/-- The wording of a fault. -/
def text : PatternFault → String
  | .blank => "pattern is empty"
  | .absolute => "pattern must be relative"
  | .backslash => "use '/' as the path separator"
  | .badPart part => s!"invalid path segment '{part}'"
  | .unknownToken text => "unknown token '\x7b" ++ text ++ "\x7d'"
  | .unbalancedBrace => "unbalanced brace"

end PatternFault

namespace Pattern

/-! ## Reading and writing -/

/-- The written form of a pattern. -/
def text (pattern : Pattern) : String := String.join (pattern.segments.map Segment.text)

/-- The segments with a literal in front, unless it is empty. The literal is given last character
first. -/
def withLiteral (literal : List Char) (segments : List Segment) : List Segment :=
  if literal.isEmpty then segments else .literal (String.ofList literal.reverse) :: segments

/-- Reads the rest of a pattern behind an open literal and, inside braces, an open token text; both
are given last character first. -/
def scan (literal : List Char) : (token? : Option (List Char)) → List Char →
    Except PatternFault (List Segment)
  | none, [] => .ok (withLiteral literal [])
  | none, c :: rest =>
    if c = '\x7b' then scan literal (some []) rest
    else if c = '\x7d' then .error .unbalancedBrace
    else scan (c :: literal) none rest
  | some _, [] => .error .unbalancedBrace
  | some inside, c :: rest =>
    if c = '\x7b' then .error .unbalancedBrace
    else if c = '\x7d' then
      match Token.ofText? (String.ofList inside.reverse) with
      | none => .error (.unknownToken (String.ofList inside.reverse))
      | some token =>
        (scan [] none rest).map fun segments => withLiteral literal (.token token :: segments)
    else scan literal (some (c :: inside)) rest

/-- Whether a part of a path between slashes does not name a file or directory of its own. -/
def isBadPart (part : String) : Bool := part == "" || part == "." || part == ".."

/-- The first fault of a text seen as a path. -/
def pathFault? (text : String) : Option PatternFault :=
  if Text.isBlankText text then some .blank
  else if text.toList.head? = some '/' then some .absolute
  else if text.toList.contains '\\' then some .backslash
  else ((Path.segments text).find? isBadPart).map .badPart

/-- The pattern of a text (specification §4.6, "Path pattern"). -/
def parse (text : String) : Except PatternFault Pattern :=
  match pathFault? text with
  | some fault => .error fault
  | none => (scan [] none text.toList).map .mk

/-! ## Properties -/

/-- Whether the pattern has the token. -/
def uses (pattern : Pattern) (token : Token) : Bool :=
  pattern.segments.contains (.token token)

/-- The part of a file name from its last dot on; empty without a dot. -/
def extensionOf (fileName : String) : String :=
  let tail := fileName.toList.reverse.takeWhile (· != '.')
  if tail.length = fileName.length then "" else String.ofList ('.' :: tail.reverse)

/-- The extension of every path of the pattern; empty when it ends in a token. -/
def extension (pattern : Pattern) : String :=
  match pattern.segments.getLast? with
  | some (.literal tail) => extensionOf ((Path.segments tail).getLastD "")
  | _ => ""

/-- The name of index files beside the pattern's files. -/
def indexFile (pattern : Pattern) : String := "index" ++ pattern.extension

/-- The file name of every path, when the pattern has no token in it. -/
def literalFileName? (pattern : Pattern) : Option String :=
  match pattern.segments.getLast? with
  | some (.literal tail) =>
    if tail.toList.contains '/' || pattern.segments.length == 1 then (Path.segments tail).getLast?
    else none
  | _ => none

/-! ## Rendering -/

/-- What a segment stands for in the path of a declaration. -/
def renderSegment (declaration : Declaration) (sharedDirectory : String) : Segment → String
  | .literal text => text
  | .token .name =>
    Text.kebab (match declaration.suffix? with
      | some suffix => Text.withoutSuffix declaration.name suffix
      | none => declaration.name)
  | .token .kind => declaration.kind
  | .token .kindPlural => declaration.kindPlural
  | .token .model =>
    match declaration.sourceEntity? with
    | some entity => Text.kebab entity
    | none => sharedDirectory

/-- The path of a declaration. -/
def render (pattern : Pattern) (declaration : Declaration) (sharedDirectory : String) : String :=
  String.join (pattern.segments.map (renderSegment declaration sharedDirectory))

end Pattern

end SchemaLayout
