import SchemaLayout.Text.HiddenTable

/-!
# Quoted texts

`quoted` shows a text inside double quotes. Double quotes, backslashes and characters that do not
show by themselves are written as escapes; a single quote stands for itself.
-/
namespace SchemaLayout.Text

/-- The hexadecimal digits of a number in lower case. -/
def hexDigits (code : Nat) : List Char := Nat.toDigits 16 code

/-- The written form of a character inside quotes. -/
def quotedChar (c : Char) : List Char :=
  match c with
  | '"' => ['\\', '"']
  | '\\' => ['\\', '\\']
  | '\n' => ['\\', 'n']
  | '\r' => ['\\', 'r']
  | '\t' => ['\\', 't']
  | c =>
    if c.toNat = 0 then ['\\', '0']
    else if isHidden c then ['\\', 'u', '\x7b'] ++ hexDigits c.toNat ++ ['\x7d']
    else [c]

/-- A text in quotes. -/
def quoted (text : String) : String :=
  String.ofList ('"' :: text.toList.flatMap quotedChar ++ ['"'])

end SchemaLayout.Text
