import SchemaLayout.Text.Blank
import SchemaLayout.Text.Case

/-!
# Kebab case

`kebab` spells a name in lower case with hyphens between its words. Words are told apart by the
separators `_`, `-` and blanks, and by case: a capital starts a word after a small letter or a
digit, and the last capital of an acronym starts one when a small letter follows it.
-/
namespace SchemaLayout.Text

/-- Separators stand between words and are not kept themselves. -/
def isSeparator (c : Char) : Bool :=
  c == '_' || c == '-' || isBlank c

/-- Whether `c` starts a word by its case, given the characters around it in the name. -/
def startsWord (previous? : Option Char) (c : Char) (next? : Option Char) : Bool :=
  match previous? with
  | none => false
  | some previous =>
    isUpper c
      && (isLower previous || previous.isDigit || (isUpper previous && next?.any isLower))

/-- Ends the last word of a spelling, which is held last character first. -/
def closeWord : List Char → List Char
  | [] => []
  | '-' :: spelled => '-' :: spelled
  | c :: spelled => '-' :: c :: spelled

/-- Spells the rest of a name behind `spelled`, last character first; `previous?` is the character
of the name in front of the rest. -/
def spell (spelled : List Char) (previous? : Option Char) : List Char → List Char
  | [] => spelled
  | c :: rest =>
    if isSeparator c then spell (closeWord spelled) (some c) rest
    else
      let spelled := if startsWord previous? c rest.head? then closeWord spelled else spelled
      spell ((lowerChar c).reverse ++ spelled) (some c) rest

/-- The kebab-case spelling of a name; it neither starts nor ends with a hyphen. -/
def kebab (name : String) : String :=
  String.ofList ((spell [] none name.toList).dropWhile (· == '-')).reverse

end SchemaLayout.Text
