import IntentRouting.Json.Number
import IntentRouting.Text.Split

/-!
# Reading JSON

A strict reader: one value with blanks around it and nothing after it. Control characters may not
stand in a string, an escape of a code point has four digits, and a number has no leading zeros and
at least one digit at each place that asks for digits. What keeps to these rules and still has no
value is kept as unreadable: half of a surrogate pair, a number out of range, and what is nested
deeper than a limit.
-/

namespace IntentRouting.Json

/-- How deeply what is read of a document may be nested. -/
def nestingLimit : Nat := 127

/-- A blank between tokens. -/
def isSpace (c : Char) : Bool := c = ' ' || c = '\n' || c = '\t' || c = '\r'

/-- Characters after the blanks at their front. -/
def skipSpace (characters : List Char) : List Char := characters.dropWhile isSpace

/-- The value of four hexadecimal digits at the front. -/
def hexQuad? : List Char → Option (Nat × List Char)
  | a :: b :: c :: d :: rest => do
      let a ← Integer.digitValue? 16 a
      let b ← Integer.digitValue? 16 b
      let c ← Integer.digitValue? 16 c
      let d ← Integer.digitValue? 16 d
      some (((a * 16 + b) * 16 + c) * 16 + d, rest)
  | _ => none

/-- What a letter after a backslash stands for. -/
def simpleEscape? (c : Char) : Option Char :=
  if c = '"' || c = '\\' || c = '/' then some c
  else if c = 'b' then some (Char.ofNat 8)
  else if c = 'f' then some (Char.ofNat 12)
  else if c = 'n' then some '\n'
  else if c = 'r' then some '\r'
  else if c = 't' then some '\t'
  else none

def isLowSurrogate (n : Nat) : Bool := 0xdc00 ≤ n && n ≤ 0xdfff

def isHighSurrogate (n : Nat) : Bool := 0xd800 ≤ n && n ≤ 0xdbff

/-- Reads a code point escape after its `\u`. Half of a surrogate pair stands for no character. -/
def unicodeEscape? (characters : List Char) : Option (Option Char × List Char) := do
  let (first, rest) ← hexQuad? characters
  if isLowSurrogate first then some (none, rest)
  else if isHighSurrogate first then
    match rest with
    | '\\' :: 'u' :: rest' => do
        let (second, rest'') ← hexQuad? rest'
        if isLowSurrogate second then
          some (some (Char.ofNat (0x10000 + (first - 0xd800) * 1024 + (second - 0xdc00))), rest'')
        else some (none, rest)
    | _ => some (none, rest)
  else some (some (Char.ofNat first), rest)

/-- A character in front of a text; there is no text if one of the two is missing. -/
def prepend (c : Option Char) (text : Option (List Char)) : Option (List Char) := do
  some ((← c) :: (← text))

/-- Reads the rest of a string after its opening mark; each step takes at least one character. A
string with half of a surrogate pair has no text. -/
def stringRest? : Nat → List Char → Option (Option (List Char) × List Char)
  | 0, _ => none
  | _ + 1, [] => none
  | _ + 1, '"' :: rest => some (some [], rest)
  | steps + 1, '\\' :: 'u' :: rest => do
      let (c, rest') ← unicodeEscape? rest
      let (text, rest'') ← stringRest? steps rest'
      some (prepend c text, rest'')
  | steps + 1, '\\' :: letter :: rest => do
      let c ← simpleEscape? letter
      let (text, rest') ← stringRest? steps rest
      some (prepend (some c) text, rest')
  | steps + 1, c :: rest =>
      if c.toNat < 0x20 || c = '\\' then none
      else do
        let (text, rest') ← stringRest? steps rest
        some (prepend (some c) text, rest')

def digits? (characters : List Char) : Option (List Char × List Char) :=
  let digits := characters.takeWhile Text.isAsciiDigit
  if digits.isEmpty then none else some (digits, characters.dropWhile Text.isAsciiDigit)

/-- Reads the digits before the point: a zero alone, or digits that do not begin with one. -/
def wholeDigits? : List Char → Option (List Char × List Char)
  | '0' :: rest =>
      match rest with
      | c :: _ => if Text.isAsciiDigit c then none else some (['0'], rest)
      | [] => some (['0'], [])
  | characters => digits? characters

/-- Reads the point and the digits after it, if there is a point. -/
def fraction? : List Char → Option (List Char × List Char)
  | '.' :: rest => do
      let (digits, rest') ← digits? rest
      some ('.' :: digits, rest')
  | characters => some ([], characters)

def exponentSign : List Char → List Char × List Char
  | '+' :: rest => (['+'], rest)
  | '-' :: rest => (['-'], rest)
  | characters => ([], characters)

def exponent? : List Char → Option (List Char × List Char)
  | c :: rest =>
      if c = 'e' || c = 'E' then do
        let (sign, rest') := exponentSign rest
        let (digits, rest'') ← digits? rest'
        some (c :: sign ++ digits, rest'')
      else some ([], c :: rest)
  | [] => some ([], [])

/-- Reads the literal of a number without its sign. -/
def magnitude? (characters : List Char) : Option (List Char × List Char) := do
  let (whole, rest) ← wholeDigits? characters
  let (fraction, rest') ← fraction? rest
  let (exponent, rest'') ← exponent? rest'
  some (whole ++ fraction ++ exponent, rest'')

def number? : List Char → Option (List Char × List Char)
  | '-' :: rest => do
      let (magnitude, rest') ← magnitude? rest
      some ('-' :: magnitude, rest')
  | characters => magnitude? characters

def ofText (text : Option (List Char)) : Json :=
  match text with
  | some characters => .string (String.ofList characters)
  | none => .unreadable

/-- The value of a number, if its literal denotes one. -/
def ofLiteral (literal : String) : Json :=
  if (Numeral.ofLiteral? literal).isSome then .number literal else .unreadable

/-- The value of an object, if all its names have a text. -/
def ofMembers (members : Option (List (String × Json))) : Json :=
  match members with
  | some members => .object members
  | none => .unreadable

/-- Reads a value that is neither an array nor an object. -/
def scalar? (steps : Nat) : List Char → Option (Json × List Char)
  | 'n' :: rest => (Text.strip? "ull".toList rest).map (Json.null, ·)
  | 't' :: rest => (Text.strip? "rue".toList rest).map (Json.bool true, ·)
  | 'f' :: rest => (Text.strip? "alse".toList rest).map (Json.bool false, ·)
  | '"' :: rest => (stringRest? steps rest).map fun (text, rest') => (ofText text, rest')
  | characters => (number? characters).map fun (literal, rest) =>
      (ofLiteral (String.ofList literal), rest)

/-! ## Passing over what is nested too deeply -/

/-- What has to come next while a value is passed over. -/
inductive Awaited where
  | value
  /-- A name, and a value after it. -/
  | member
  /-- A comma, or the end of what is open. -/
  | next
deriving DecidableEq, Repr

/-- Passes over a value, given the marks that have to close what is open, the innermost first.
Nothing is kept of the value, so its depth does not matter; each step takes at least one character.
-/
def skip? : Nat → Awaited → List Char → List Char → Option (List Char)
  | 0, _, _, _ => none
  | steps + 1, .value, closing, characters =>
      match skipSpace characters with
      | '[' :: rest =>
          match skipSpace rest with
          | ']' :: rest' => skip? steps .next closing rest'
          | rest' => skip? steps .value (']' :: closing) rest'
      | '\x7b' :: rest =>
          match skipSpace rest with
          | '\x7d' :: rest' => skip? steps .next closing rest'
          | rest' => skip? steps .member ('\x7d' :: closing) rest'
      | rest =>
          match scalar? steps rest with
          | some (_, rest') => skip? steps .next closing rest'
          | none => none
  | steps + 1, .member, closing, characters =>
      match skipSpace characters with
      | '"' :: rest =>
          match stringRest? steps rest with
          | some (_, rest') =>
              match skipSpace rest' with
              | ':' :: rest'' => skip? steps .value closing rest''
              | _ => none
          | none => none
      | _ => none
  | _ + 1, .next, [], characters => some characters
  | steps + 1, .next, mark :: closing, characters =>
      match skipSpace characters with
      | ',' :: rest => skip? steps (if mark = ']' then .value else .member) (mark :: closing) rest
      | c :: rest => if c = mark then skip? steps .next closing rest else none
      | [] => none

/-! ## Documents -/

mutual

/-- Reads one value, blanks before it included. The first number bounds the steps, the second the
depth down to which values are kept. -/
def value? : Nat → Nat → List Char → Option (Json × List Char)
  | 0, _, _ => none
  | steps + 1, depth, characters =>
      match skipSpace characters with
      | '[' :: rest =>
          match depth with
          | 0 => (skip? steps .value [] ('[' :: rest)).map (Json.unreadable, ·)
          | depth + 1 =>
              match skipSpace rest with
              | ']' :: rest' => some (.array [], rest')
              | rest' => (items? steps depth rest').map fun (items, rest'') =>
                  (Json.array items, rest'')
      | '\x7b' :: rest =>
          match depth with
          | 0 => (skip? steps .value [] ('\x7b' :: rest)).map (Json.unreadable, ·)
          | depth + 1 =>
              match skipSpace rest with
              | '\x7d' :: rest' => some (.object [], rest')
              | rest' => (members? steps depth rest').map fun (members, rest'') =>
                  (ofMembers members, rest'')
      | rest => scalar? steps rest

/-- Reads at least one item, up to the bracket that closes the array. -/
def items? : Nat → Nat → List Char → Option (List Json × List Char)
  | 0, _, _ => none
  | steps + 1, depth, characters => do
      let (item, rest) ← value? steps depth characters
      match skipSpace rest with
      | ',' :: rest' => do
          let (items, rest'') ← items? steps depth rest'
          some (item :: items, rest'')
      | ']' :: rest' => some ([item], rest')
      | _ => none

/-- Reads at least one member, up to the brace that closes the object. There are no members if one
of them has a name without a text. -/
def members? : Nat → Nat → List Char → Option (Option (List (String × Json)) × List Char)
  | 0, _, _ => none
  | steps + 1, depth, characters =>
      match skipSpace characters with
      | '"' :: rest => do
          let (name, afterName) ← stringRest? steps rest
          match skipSpace afterName with
          | ':' :: afterColon => do
              let (value, afterValue) ← value? steps depth afterColon
              let member := name.map fun name => (String.ofList name, value)
              match skipSpace afterValue with
              | ',' :: more => do
                  let (members, after) ← members? steps depth more
                  some (do some ((← member) :: (← members)), after)
              | '\x7d' :: after => some (member.map ([·]), after)
              | _ => none
          | _ => none
      | _ => none

end

/-- Reads a document, keeping what is nested no deeper than a limit. A step takes a character or the
next one does, which bounds the steps. -/
def readWithin (limit : Nat) (text : String) : Option Json :=
  let characters := text.toList
  match value? (2 * characters.length + 2) limit characters with
  | some (json, rest) => if (skipSpace rest).isEmpty then some json else none
  | none => none

def read? (text : String) : Option Json := readWithin nestingLimit text

end IntentRouting.Json
