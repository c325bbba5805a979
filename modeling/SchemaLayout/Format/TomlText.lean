import SchemaLayout.Format.JsonReader

/-!
# The texts of TOML

Blanks, comments, strings, keys and numbers of TOML. Every reader gives what it read and the text
behind it.
-/
namespace SchemaLayout.Toml

/-! ## Blanks and line ends -/

/-- The text from its first character that is neither space nor tab. -/
def skipBlanks (cs : List Char) : List Char := cs.dropWhile fun c => c == ' ' || c == '\t'

/-- Characters that may stand in comments and strings: no control characters apart from the tab. -/
def isPlain (c : Char) : Bool :=
  c == '\t' || (0x20 ≤ c.toNat && c.toNat ≤ 0x7E) || 0x80 ≤ c.toNat

/-- The text behind a line break. -/
def dropLineBreak? : List Char → Option (List Char)
  | '\n' :: rest => some rest
  | '\r' :: '\n' :: rest => some rest
  | _ => none

/-- The text behind a comment, if there is one. -/
def skipComment : List Char → List Char
  | '#' :: rest => rest.dropWhile isPlain
  | cs => cs

/-- The text behind the end of a line, which may hold a comment. The end of the text ends a line. -/
def dropLineEnd? (cs : List Char) : Option (List Char) :=
  match skipComment (skipBlanks cs) with
  | [] => some []
  | rest => dropLineBreak? rest

/-- The text behind blanks, comments and line breaks; `none` if a comment does not end its line. -/
def skipLines? : (fuel : Nat) → List Char → Option (List Char)
  | 0, _ => none
  | fuel + 1, cs =>
    match skipBlanks cs with
    | '#' :: rest => (dropLineBreak? (rest.dropWhile isPlain)).bind (skipLines? fuel)
    | rest =>
      match dropLineBreak? rest with
      | some rest => skipLines? fuel rest
      | none => some rest

/-! ## Strings -/

/-- The character of a code point. -/
def charOfCode? (code : Nat) : Option Char :=
  if code < 0xD800 ∨ 0xDFFF < code ∧ code < 0x110000 then some (Char.ofNat code) else none

/-- An escape behind its backslash. -/
def readEscape : List Char → Option (Char × List Char)
  | 'u' :: rest => do
    let digits := rest.take 4
    if digits.length < 4 then none
    return (← charOfCode? (← Json.hexNumber? digits), rest.drop 4)
  | 'U' :: rest => do
    let digits := rest.take 8
    if digits.length < 8 then none
    return (← charOfCode? (← Json.hexNumber? digits), rest.drop 8)
  | letter :: rest => if letter = '/' then none else (Json.escape? letter).map (·, rest)
  | [] => none

/-- A string in double quotes behind its opening quote. -/
def readBasic : (fuel : Nat) → List Char → Option (List Char × List Char)
  | 0, _ => none
  | _, [] => none
  | fuel + 1, c :: rest =>
    if c = '"' then some ([], rest)
    else if c = '\\' then do
      let (c, rest) ← readEscape rest
      let (text, rest) ← readBasic fuel rest
      return (c :: text, rest)
    else if isPlain c then do
      let (text, rest) ← readBasic fuel rest
      return (c :: text, rest)
    else none

/-- A string in single quotes behind its opening quote. -/
def readLiteral (cs : List Char) : Option (List Char × List Char) :=
  match cs.span fun c => isPlain c && c != '\'' with
  | (text, '\'' :: rest) => some (text, rest)
  | _ => none

/-- The end of a string over several lines, found at three quotes or more: up to two quotes in front
of the closing three belong to the string. -/
def closeLines (quote : Char) (cs : List Char) : Option (List Char × List Char) :=
  let quotes := (cs.takeWhile (· == quote)).length
  if quotes < 3 then none
  else some (List.replicate (min quotes 5 - 3) quote, cs.drop (min quotes 5))

/-- The text behind a backslash at the end of a line: blanks and line breaks are passed over. -/
def skipFoldedLines? (cs : List Char) : Option (List Char) :=
  (dropLineBreak? (skipBlanks cs)).map fun rest => go rest.length rest
where
  /-- Passes over blanks and line breaks. -/
  go : Nat → List Char → List Char
    | 0, cs => cs
    | fuel + 1, cs =>
      match dropLineBreak? (skipBlanks cs) with
      | some rest => go fuel rest
      | none => skipBlanks cs

/-- A string over several lines behind its opening quotes. Escapes count only in double quotes. -/
def readLines (quote : Char) : (fuel : Nat) → List Char → Option (List Char × List Char)
  | 0, _ => none
  | _, [] => none
  | fuel + 1, c :: rest =>
    match closeLines quote (c :: rest), dropLineBreak? (c :: rest) with
    | some closed, _ => some closed
    | none, some rest => (readLines quote fuel rest).map fun (text, rest) => ('\n' :: text, rest)
    | none, none =>
      if c = '\\' ∧ quote = '"' then
        match skipFoldedLines? rest with
        | some rest => readLines quote fuel rest
        | none => do
          let (c, rest) ← readEscape rest
          let (text, rest) ← readLines quote fuel rest
          return (c :: text, rest)
      else if isPlain c then (readLines quote fuel rest).map fun (text, rest) => (c :: text, rest)
      else none

/-- A string of any kind. A line break right behind the three quotes of a string over several lines
does not belong to it. -/
def readString (cs : List Char) : Option (String × List Char) :=
  (match cs with
  | '"' :: '"' :: '"' :: rest =>
    readLines '"' (cs.length + 1) ((dropLineBreak? rest).getD rest)
  | '\'' :: '\'' :: '\'' :: rest =>
    readLines '\'' (cs.length + 1) ((dropLineBreak? rest).getD rest)
  | '"' :: rest => readBasic (cs.length + 1) rest
  | '\'' :: rest => readLiteral rest
  | _ => none).map fun (text, rest) => (String.ofList text, rest)

/-! ## Keys -/

/-- Characters of keys without quotes. -/
def isBareKey (c : Char) : Bool := c.isAlphanum || c == '_' || c == '-'

/-- A key without dots. -/
def readSimpleKey (cs : List Char) : Option (String × List Char) :=
  (match cs with
  | '"' :: rest => readBasic (cs.length + 1) rest
  | '\'' :: rest => readLiteral rest
  | _ =>
    match cs.span isBareKey with
    | ([], _) => none
    | read => some read).map fun (text, rest) => (String.ofList text, rest)

/-- Lists and inline tables are nested less deeply than this, and keys have fewer parts. -/
def depthLimit : Nat := 80

/-- The parts of a key between its dots. Blanks may stand around each part. -/
def readKeyParts : (fuel : Nat) → List Char → Option (List String × List Char)
  | 0, _ => none
  | fuel + 1, cs => do
    let (part, rest) ← readSimpleKey (skipBlanks cs)
    match skipBlanks rest with
    | '.' :: rest =>
      let (parts, rest) ← readKeyParts fuel rest
      return (part :: parts, rest)
    | rest => return ([part], rest)

/-- A key, by its parts. -/
def readKey (cs : List Char) : Option (List String × List Char) :=
  (readKeyParts (cs.length + 1) cs).filter fun (parts, _) => parts.length < depthLimit

/-! ## Numbers and dates -/

/-- Digits with single underscores between them. -/
def isDigitRun (isDigit : Char → Bool) (cs : List Char) : Bool :=
  (cs.splitOn '_').all fun run => !run.isEmpty && run.all isDigit

/-- The text without its sign. -/
def unsigned : List Char → List Char
  | '+' :: rest | '-' :: rest => rest
  | cs => cs

/-- Decimal digits that start with a zero only if it is the only one. -/
def isWhole (cs : List Char) : Bool :=
  isDigitRun Char.isDigit cs && (cs.head? != some '0' || cs.length == 1)

/-- The value of digits to a base, underscores apart. -/
def valueOf (base : Nat) (cs : List Char) : Nat :=
  (cs.filterMap Json.hexDigit?).foldl (base * · + ·) 0

/-- The magnitude of the least whole number of 64 bits, which no positive one reaches. -/
def integerLimit : Nat := 0x8000000000000000

/-- Whole numbers of 64 bits, decimal or with a base. -/
def isInteger (cs : List Char) : Bool :=
  match cs with
  | '0' :: 'x' :: digits =>
    isDigitRun (fun c => (Json.hexDigit? c).isSome) digits && valueOf 16 digits < integerLimit
  | '0' :: 'o' :: digits =>
    isDigitRun (fun c => '0' ≤ c && c ≤ '7') digits && valueOf 8 digits < integerLimit
  | '0' :: 'b' :: digits =>
    isDigitRun (fun c => c == '0' || c == '1') digits && valueOf 2 digits < integerLimit
  | _ =>
    let limit := if cs.head? = some '-' then integerLimit + 1 else integerLimit
    isWhole (unsigned cs) && valueOf 10 (unsigned cs) < limit

/-- Numbers with a fraction, an exponent or both, and the named ones. -/
def isFloat (cs : List Char) : Bool :=
  let body := unsigned cs
  let (significand, exponent) := body.span fun c => c != 'e' && c != 'E'
  let (whole, fraction) := significand.span (· != '.')
  String.ofList body == "inf" || String.ofList body == "nan"
    || ((!exponent.isEmpty || !fraction.isEmpty) && isWhole whole
      && (fraction.isEmpty || isDigitRun Char.isDigit (fraction.drop 1))
      && (exponent.isEmpty || isDigitRun Char.isDigit (unsigned (exponent.drop 1))))

/-- Whether a number is too large to have a nearest one of double precision. Below zero there is no
such limit. -/
def isTooLarge (cs : List Char) : Bool :=
  cs.head? != some '-' && match Decimal.read ((unsigned cs).filter (· != '_')) with
    | some (decimal, []) => !decimal.fits
    | _ => false

/-- Two digits below a limit. -/
def isTwoDigits (limit : Nat) (cs : List Char) : Bool :=
  cs.length == 2 && cs.all Char.isDigit && valueOf 10 cs < limit

/-- Dates of the form `1979-05-27`. -/
def isDate (cs : List Char) : Bool :=
  match cs.splitOn '-' with
  | [year, month, day] =>
    let year' := valueOf 10 year
    let days :=
      match valueOf 10 month with
      | 2 => if year' % 4 == 0 && (year' % 100 != 0 || year' % 400 == 0) then 29 else 28
      | 4 | 6 | 9 | 11 => 30
      | _ => 31
    year.length == 4 && year.all Char.isDigit && isTwoDigits 13 month && month != ['0', '0']
      && isTwoDigits (days + 1) day && day != ['0', '0']
  | _ => false

/-- Times of day of the form `07:32:00`, whose last second may be a leap second. -/
def isClock (cs : List Char) : Bool :=
  match cs.splitOn ':' with
  | [hour, minute, second] =>
    isTwoDigits 24 hour && isTwoDigits 60 minute && isTwoDigits 61 second
  | _ => false

/-- The normal form of a fraction of a second: billionths at most, no zeros at the end, and nothing
if no digits are left. -/
def normalFraction (digits : List Char) : List Char :=
  match ((digits.take 9).reverse.dropWhile (· == '0')).reverse with
  | [] => []
  | kept => '.' :: kept

/-- The normal form of a time such as `07:32:00.50`. -/
def normalTime? (cs : List Char) : Option (List Char) :=
  let (clock, fraction) := cs.span (· != '.')
  if !isClock clock then none
  else match fraction with
    | [] => some clock
    | _ :: digits =>
      if !digits.isEmpty && digits.all Char.isDigit then some (clock ++ normalFraction digits)
      else none

/-- The normal form of an offset such as `-07:00`, or of none. An offset of nothing is positive. -/
def normalOffset? (cs : List Char) : Option (List Char) :=
  match cs with
  | [] => some []
  | sign :: span =>
    match span.splitOn ':' with
    | [hour, minute] =>
      if isTwoDigits 24 hour && isTwoDigits 60 minute then
        some ((if valueOf 10 (hour ++ minute) = 0 then '+' else sign) :: span)
      else none
    | _ => none

/-- The normal form of a time with an offset at its end, if there is one. -/
def normalOffsetTime? (cs : List Char) : Option (List Char) :=
  match cs.reverse with
  | 'Z' :: time | 'z' :: time => (normalTime? time.reverse).map (· ++ ['Z'])
  | _ => do
    let (time, offset) := cs.span fun c => c != '+' && c != '-'
    return (← normalTime? time) ++ (← normalOffset? offset)

/-- The normal form of a date, a time or both, which the letter `T` joins. -/
def normalDateTime? (cs : List Char) : Option (List Char) :=
  match cs.splitAt 10 with
  | (day, []) => if isDate day then some day else normalTime? cs
  | (day, separator :: time) =>
    if isDate day then
      if separator = 'T' ∨ separator = 't' ∨ separator = ' ' then
        (normalOffsetTime? time).map (day ++ 'T' :: ·)
      else none
    else normalTime? cs

/-- The name of the one entry that a date or time has as a record. -/
def dateEntry : String := "$__toml_private_datetime"

/-- Characters of numbers, dates and times. -/
def isNumeral (c : Char) : Bool :=
  c.isAlphanum || c == '_' || c == '+' || c == '-' || c == '.' || c == ':'

/-- The content of a written number, date or time; that of dates and times is a record of their
normal form. -/
def numeral? (written : List Char) : Option Value :=
  if isInteger written || (isFloat written && !isTooLarge written) then
    some (.number (String.ofList written))
  else (normalDateTime? written).map fun shown => .record [(dateEntry, .text (String.ofList shown))]

/-- A number, a date or a time. A date may have one space between day and time. -/
def readNumeral (cs : List Char) : Option (Value × List Char) :=
  let (first, rest) := cs.span isNumeral
  let (written, rest) :=
    match rest with
    | ' ' :: next :: _ =>
      if isDate first && next.isDigit then
        let (time, rest) := (rest.drop 1).span isNumeral
        (first ++ ' ' :: time, rest)
      else (first, rest)
    | _ => (first, rest)
  (numeral? written).map (·, rest)

end SchemaLayout.Toml
