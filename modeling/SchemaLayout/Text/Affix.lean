/-!
# Suffixes and tokens of names

`withoutSuffix` cuts a suffix off a name that is longer than it; `withoutTokens` deletes every
occurrence of each given token, one token after the other.
-/
namespace SchemaLayout.Text

/-- `cs` with `suffix` cut off its end, when it ends so. -/
def dropSuffix? (cs suffix : List Char) : Option (List Char) :=
  if suffix.isSuffixOf cs then some (cs.take (cs.length - suffix.length)) else none

/-- `name` without the suffix; unchanged if it ends otherwise or nothing would be left. -/
def withoutSuffix (name suffix : String) : String :=
  match dropSuffix? name.toList suffix.toList with
  | some (c :: rest) => String.ofList (c :: rest)
  | _ => name

/-- The characters left of `cs` once `skip` characters are passed over and the occurrences of
`token` behind them deleted, leftmost first and without overlap. -/
def deleteToken (token : List Char) : (skip : Nat) → List Char → List Char
  | _, [] => []
  | 0, c :: rest =>
    if token.isPrefixOf (c :: rest) then deleteToken token (token.length - 1) rest
    else c :: deleteToken token 0 rest
  | skip + 1, _ :: rest => deleteToken token skip rest

/-- `name` with every occurrence of `token` deleted; an empty token occurs nowhere. -/
def withoutToken (name token : String) : String :=
  if token = "" then name else String.ofList (deleteToken token.toList 0 name.toList)

/-- `name` with each token deleted in turn. -/
def withoutTokens (name : String) (tokens : List String) : String :=
  tokens.foldl withoutToken name

end SchemaLayout.Text
