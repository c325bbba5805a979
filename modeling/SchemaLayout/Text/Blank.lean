/-!
# Blank characters

`isBlank` is the Unicode property White_Space: 25 characters, of which the zero width space is none.
-/
namespace SchemaLayout.Text

/-- White space of every kind: spaces, tabs, line breaks and separators. -/
def isBlank (c : Char) : Bool :=
  let code := c.toNat
  (0x9 ≤ code && code ≤ 0xD) || code == 0x20 || code == 0x85 || code == 0xA0 || code == 0x1680
    || (0x2000 ≤ code && code ≤ 0x200A) || code == 0x2028 || code == 0x2029 || code == 0x202F
    || code == 0x205F || code == 0x3000

/-- A text of blanks only, the empty text included. -/
def isBlankText (text : String) : Bool :=
  text.toList.all isBlank

end SchemaLayout.Text
