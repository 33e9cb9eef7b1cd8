import IntentRouting.Json.Reader
import IntentRouting.Time.Timestamp
import IntentRouting.Toml.Basic

/-!
# Reading values without structure

Strings in their four forms, numbers, truth values, and dates and times. Each function reads what
stands at the front of some characters and returns the rest of them.
-/

namespace IntentRouting.Toml

/-- A space or a tab. -/
def isSpace (c : Char) : Bool := c = ' ' || c = '\t'

/-- Characters without the spaces and tabs at their front. -/
def skipSpace (characters : List Char) : List Char := characters.dropWhile isSpace

/-- A character that may stand in a comment or in a string on one line. -/
def isText (c : Char) : Bool := c = '\t' || (0x20 ≤ c.toNat && c.toNat != 0x7f)

/-- The rest after a line break. -/
def newline? : List Char → Option (List Char)
  | '\n' :: rest => some rest
  | '\r' :: '\n' :: rest => some rest
  | _ => none

/-! ## Strings -/

/-- Reads a code point of some number of hexadecimal digits. -/
def codePoint? (width : Nat) (characters : List Char) : Option (Char × List Char) :=
  let digits := characters.take width
  if digits.length < width then none
  else
    match digits.mapM (Integer.digitValue? 16) with
    | none => none
    | some values =>
        let n := values.foldl (fun n value => n * 16 + value) 0
        if n < 0xd800 || (0xdfff < n && n < 0x110000) then
          some (Char.ofNat n, characters.drop width)
        else none

/-- Reads what stands for a character after a backslash. -/
def escape? : List Char → Option (Char × List Char)
  | 'b' :: rest => some (Char.ofNat 8, rest)
  | 't' :: rest => some ('\t', rest)
  | 'n' :: rest => some ('\n', rest)
  | 'f' :: rest => some (Char.ofNat 12, rest)
  | 'r' :: rest => some ('\r', rest)
  | '"' :: rest => some ('"', rest)
  | '\\' :: rest => some ('\\', rest)
  | 'u' :: rest => codePoint? 4 rest
  | 'U' :: rest => codePoint? 8 rest
  | _ => none

/-- Reads the rest of a line between double marks. Each step takes at least one character. -/
def basicRest? : Nat → List Char → Option (List Char × List Char)
  | 0, _ => none
  | _ + 1, [] => none
  | _ + 1, '"' :: rest => some ([], rest)
  | steps + 1, '\\' :: rest => do
      let (c, rest) ← escape? rest
      let (characters, rest) ← basicRest? steps rest
      some (c :: characters, rest)
  | steps + 1, c :: rest =>
      if isText c then do
        let (characters, rest) ← basicRest? steps rest
        some (c :: characters, rest)
      else none

/-- Reads the rest of a line between single marks. -/
def literalRest? : List Char → Option (List Char × List Char)
  | [] => none
  | '\'' :: rest => some ([], rest)
  | c :: rest =>
      if isText c then (literalRest? rest).map fun (characters, rest) => (c :: characters, rest)
      else none

/-- The rest after blanks and line breaks. -/
def skipBlankLines : List Char → List Char
  | '\n' :: rest => skipBlankLines rest
  | '\r' :: '\n' :: rest => skipBlankLines rest
  | c :: rest => if isSpace c then skipBlankLines rest else c :: rest
  | [] => []

/-- The rest after the blanks and line breaks that a backslash at the end of a line skips, if the
line ends there. -/
def lineEnd? (characters : List Char) : Option (List Char) :=
  (newline? (skipSpace characters)).map skipBlankLines

/-- The marks at the end of lines: three of them end the string, and two more may stand before
these. -/
def closingMarks? (mark : Char) (characters : List Char) : Option (List Char × List Char) :=
  let run := (characters.takeWhile (· = mark)).length
  if 3 ≤ run && run ≤ 5 then some (List.replicate (run - 3) mark, characters.drop run) else none

/-- Reads the rest of lines between three marks, where escapes may be allowed. Each step takes at
least one character. -/
def linesRest? (mark : Char) (escapes : Bool) : Nat → List Char → Option (List Char × List Char)
  | 0, _ => none
  | _ + 1, [] => none
  | steps + 1, c :: rest =>
      if c = mark then
        match rest with
        | c' :: c'' :: _ =>
            if c' = mark && c'' = mark then closingMarks? mark (c :: rest)
            else (linesRest? mark escapes steps rest).map fun (characters, rest) =>
              (c :: characters, rest)
        | _ => none
      else if c = '\\' && escapes then
        match lineEnd? rest with
        | some rest => linesRest? mark escapes steps rest
        | none => do
            let (c, rest) ← escape? rest
            let (characters, rest) ← linesRest? mark escapes steps rest
            some (c :: characters, rest)
      else
        match newline? (c :: rest) with
        | some rest => (linesRest? mark escapes steps rest).map fun (characters, rest) =>
            ('\n' :: characters, rest)
        | none =>
            if isText c then
              (linesRest? mark escapes steps rest).map fun (characters, rest) =>
                (c :: characters, rest)
            else none

/-- Reads lines after their opening marks; a line break right after these does not count. -/
def lines? (mark : Char) (escapes : Bool) (characters : List Char) :
    Option (List Char × List Char) :=
  linesRest? mark escapes (characters.length + 1) ((newline? characters).getD characters)

def lineString? : List Char → Option (List Char × List Char)
  | '"' :: rest => basicRest? (rest.length + 1) rest
  | '\'' :: rest => literalRest? rest
  | _ => none

def anyString? (characters : List Char) : Option (List Char × List Char) :=
  match characters with
  | '"' :: '"' :: '"' :: rest => lines? '"' true rest
  | '\'' :: '\'' :: '\'' :: rest => lines? '\'' false rest
  | _ => lineString? characters

/-! ## Numbers -/

def isDigit (base : Nat) (c : Char) : Bool := (Integer.digitValue? base c).isSome

/-- Takes digits of some base that follow a digit; an underscore may stand before each of them. The
digits are returned without underscores. -/
def moreDigits (base : Nat) : List Char → List Char × List Char
  | '_' :: c :: rest =>
      if isDigit base c then
        let (digits, rest) := moreDigits base rest
        (c :: digits, rest)
      else ([], '_' :: c :: rest)
  | c :: rest =>
      if isDigit base c then
        let (digits, rest) := moreDigits base rest
        (c :: digits, rest)
      else ([], c :: rest)
  | [] => ([], [])

/-- Reads at least one digit of some base, where an underscore may stand between two of them. -/
def digits? (base : Nat) : List Char → Option (List Char × List Char)
  | [] => none
  | c :: rest =>
      if isDigit base c then
        let (digits, rest) := moreDigits base rest
        some (c :: digits, rest)
      else none

def sign : List Char → Bool × List Char
  | '+' :: rest => (false, rest)
  | '-' :: rest => (true, rest)
  | characters => (false, characters)

/-- Reads the whole part of a decimal number: no zeros stand before other digits. -/
def wholePart? (characters : List Char) : Option (List Char × List Char) :=
  match digits? 10 characters with
  | some ('0' :: _ :: _, _) => none
  | other => other

def exponent? (characters : List Char) : Option (List Char × List Char) := do
  let (negative, rest) := sign characters
  let (digits, rest) ← digits? 10 rest
  some ((if negative then ['-'] else []) ++ digits, rest)

def optionalExponent? : List Char → Option (List Char × List Char)
  | c :: rest =>
      if c = 'e' || c = 'E' then (exponent? rest).map fun (digits, rest) => ('e' :: digits, rest)
      else some ([], c :: rest)
  | [] => some ([], [])

/-- Reads the fraction and the exponent of a number, of which one has to be there. -/
def floatPart? : List Char → Option (List Char × List Char)
  | '.' :: rest => do
      let (fraction, rest) ← digits? 10 rest
      let (exponent, rest) ← optionalExponent? rest
      some ('.' :: fraction ++ exponent, rest)
  | c :: rest => if c = 'e' || c = 'E' then optionalExponent? (c :: rest) else none
  | [] => none

def integerBounds : Integer.Bounds := .signed 64

/-- Reads a whole number in a base other than ten. -/
def basedInteger? (base : Nat) (characters : List Char) : Option (Toml × List Char) := do
  let (digits, rest) ← digits? base characters
  let n ← (Integer.read base integerBounds digits).toOption
  some (.integer n, rest)

/-- Reads a decimal number. A real number above the greatest one is refused; one below the least is
negative infinity. -/
def decimal? (characters : List Char) : Option (Toml × List Char) := do
  let (negative, magnitude) := sign characters
  let minus := if negative then ['-'] else []
  let (whole, rest) ← wholePart? magnitude
  match floatPart? rest with
  | some (part, rest) =>
      let value ← Binary.parse? .double (String.ofList (minus ++ whole ++ part))
      if value = .infinite false then none else some (.float value, rest)
  | none =>
      let n ← (Integer.read 10 integerBounds (minus ++ whole)).toOption
      some (.integer n, rest)

/-- Reads the words for infinity and for what is not a number. -/
def specialFloat? (characters : List Char) : Option (Toml × List Char) :=
  let (negative, rest) := sign characters
  match rest with
  | 'i' :: 'n' :: 'f' :: rest => some (.float (.infinite negative), rest)
  | 'n' :: 'a' :: 'n' :: rest => some (.float .nan, rest)
  | _ => none

def number? (characters : List Char) : Option (Toml × List Char) :=
  match specialFloat? characters with
  | some result => some result
  | none =>
      match characters with
      | '0' :: 'x' :: rest => basedInteger? 16 rest
      | '0' :: 'o' :: rest => basedInteger? 8 rest
      | '0' :: 'b' :: rest => basedInteger? 2 rest
      | _ => decimal? characters

/-! ## Dates and times -/

/-- Reads a number of exactly some digits that lies in a range. -/
def field? (width lowest highest : Nat) (characters : List Char) : Option (Nat × List Char) :=
  let digits := characters.take width
  let n := Binary.digitsValue digits
  if digits.length = width && digits.all Text.isAsciiDigit && lowest ≤ n && n ≤ highest then
    some (n, characters.drop width)
  else none

def skipDate? (characters : List Char) : Option (List Char) := do
  let (year, rest) ← field? 4 0 9999 characters
  let (month, rest) ← field? 2 1 12 (← Text.strip? ['-'] rest)
  let (_, rest) ← field? 2 1 (Timestamp.daysInMonth year month) (← Text.strip? ['-'] rest)
  some rest

/-- The rest after the places after the point of the second. -/
def skipFraction? : List Char → Option (List Char)
  | '.' :: rest =>
      if (rest.takeWhile Text.isAsciiDigit).isEmpty then none
      else some (rest.dropWhile Text.isAsciiDigit)
  | characters => some characters

def skipTime? (characters : List Char) : Option (List Char) := do
  let (_, rest) ← field? 2 0 23 characters
  let (_, rest) ← field? 2 0 59 (← Text.strip? [':'] rest)
  let (_, rest) ← field? 2 0 60 (← Text.strip? [':'] rest)
  skipFraction? rest

/-- The rest after an offset from universal time, if there is one. -/
def skipOffset? : List Char → Option (List Char)
  | c :: rest =>
      if c = 'Z' || c = 'z' then some rest
      else if c = '+' || c = '-' then do
        let (_, rest) ← field? 2 0 23 rest
        let (_, rest) ← field? 2 0 59 (← Text.strip? [':'] rest)
        some rest
      else some (c :: rest)
  | [] => some []

/-- Whether a character and two digits and a colon after it begin the time after a date. -/
def beginsTime : List Char → Bool
  | delimiter :: a :: b :: ':' :: _ =>
      (delimiter = 'T' || delimiter = 't' || delimiter = ' ') && Text.isAsciiDigit a &&
        Text.isAsciiDigit b
  | _ => false

def skipMoment? (characters : List Char) : Option (List Char) :=
  match skipDate? characters with
  | none => skipTime? characters
  | some rest =>
      if beginsTime rest then (skipTime? rest.tail).bind skipOffset?
      else some rest

/-- Whether characters begin like a date or a time. -/
def beginsMoment : List Char → Bool
  | a :: b :: c :: d :: rest =>
      Text.isAsciiDigit a && Text.isAsciiDigit b &&
        (c = ':' || (Text.isAsciiDigit c && Text.isAsciiDigit d && rest.head? = some '-'))
  | _ => false

def scalar? (characters : List Char) : Option (Toml × List Char) :=
  match characters with
  | '"' :: _ | '\'' :: _ =>
      (anyString? characters).map fun (text, rest) => (.string (String.ofList text), rest)
  | 't' :: 'r' :: 'u' :: 'e' :: rest => some (.bool true, rest)
  | 'f' :: 'a' :: 'l' :: 's' :: 'e' :: rest => some (.bool false, rest)
  | _ =>
      if beginsMoment characters then
        (skipMoment? characters).map fun rest =>
          (.moment (String.ofList (characters.take (characters.length - rest.length))), rest)
      else number? characters

end IntentRouting.Toml
