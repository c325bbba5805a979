import SchemaLayout.Text.CaseTable

/-!
# Upper and lower case

`isUpper` and `isLower` classify characters, `lowerChar` gives the lower-case form of one character
(sometimes two characters) and `lower` that of a text. In a text a capital sigma at the end of a
word becomes the final form `ς`; everywhere else it becomes `σ`.
-/
namespace SchemaLayout.Text

/-- Upper-case letters and the upper-case numerals and circled letters. -/
def isUpper (c : Char) : Bool :=
  if c.toNat < 0x80 then c.isUpper else inRuns upperRuns c

/-- Lower-case letters, with the modifier letters and ordinal signs that count as such. -/
def isLower (c : Char) : Bool :=
  if c.toNat < 0x80 then c.isLower else inRuns lowerRuns c

/-- Characters that have case: upper, lower or title case. -/
def isCased (c : Char) : Bool :=
  isUpper c || isLower c || inRuns titleRuns c

/-- Characters that the final sigma rule looks past. -/
def isCaseIgnorable (c : Char) : Bool :=
  inRuns caseIgnorableRuns c

/-- The lower-case form of one character on its own. The dotted capital `İ` is the only one with
two characters, `i` and a combining dot. -/
def lowerChar (c : Char) : List Char :=
  if c.toNat < 0x80 then [c.toLower]
  else if c.toNat = 0x130 then ['i', Char.ofNat 0x307]
  else match lowerings.find? (·.1.covers c.toNat) with
    | some (_, distance) => [Char.ofNat (c.toNat + distance).toNat]
    | none => [c]

/-- Whether the first character that case rules do not look past has case. -/
def meetsCased (cs : List Char) : Bool :=
  match cs.dropWhile isCaseIgnorable with
  | c :: _ => isCased c
  | [] => false

/-- The lower-case form of `cs`, where `before` is the text in front of it, nearest character
first. -/
def lowerAfter (before : List Char) : List Char → List Char
  | [] => []
  | c :: rest =>
    (if c = 'Σ' then [if meetsCased before && !meetsCased rest then 'ς' else 'σ'] else lowerChar c)
      ++ lowerAfter (c :: before) rest

/-- The lower-case form of a text. -/
def lower (text : String) : String :=
  String.ofList (lowerAfter [] text.toList)

end SchemaLayout.Text
