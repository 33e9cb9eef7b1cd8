import IntentRouting.Json.Basic

/-!
# Writing JSON

Two layouts of a document: the compact one without any blanks, and the indented one with one item or
member a line, two spaces deeper than the line that opens it. A string escapes the quotation mark,
the backslash and the characters below U+0020, the common ones of these by a letter; everything else
is written as it is. What has no value is written as null.
-/

namespace IntentRouting.Json

def hexDigit (n : Nat) : Char := Nat.digitChar n

/-- One character inside the quotation marks of a string. -/
def escapeChar (c : Char) : List Char :=
  if c = '"' then ['\\', '"']
  else if c = '\\' then ['\\', '\\']
  else if c = '\n' then ['\\', 'n']
  else if c = '\r' then ['\\', 'r']
  else if c = '\t' then ['\\', 't']
  else if c.toNat = 8 then ['\\', 'b']
  else if c.toNat = 12 then ['\\', 'f']
  else if c.toNat < 0x20 then
    ['\\', 'u', '0', '0', hexDigit (c.toNat / 16), hexDigit (c.toNat % 16)]
  else [c]

def stringChars (text : String) : List Char :=
  '"' :: text.toList.flatMap escapeChar ++ ['"']

mutual

/-- The characters of a document without blanks. -/
def compactChars : Json → List Char
  | .null | .unreadable => "null".toList
  | .bool true => "true".toList
  | .bool false => "false".toList
  | .number literal => literal.toList
  | .string value => stringChars value
  | .array items => '[' :: compactItems items ++ [']']
  | .object members => '\x7b' :: compactMembers members ++ ['\x7d']

def compactItems : List Json → List Char
  | [] => []
  | [item] => compactChars item
  | item :: next :: items => compactChars item ++ ',' :: compactItems (next :: items)

def compactMembers : List (String × Json) → List Char
  | [] => []
  | [(name, value)] => stringChars name ++ ':' :: compactChars value
  | (name, value) :: next :: members =>
      stringChars name ++ ':' :: compactChars value ++ ',' :: compactMembers (next :: members)

end

def compact (json : Json) : String := String.ofList (compactChars json)

/-- A line break and the indentation of a level. -/
def lineBreak (level : Nat) : List Char := '\n' :: List.replicate (2 * level) ' '

mutual

/-- The characters of an indented document whose first line stands at a level. -/
def indentedChars (level : Nat) : Json → List Char
  | .array [] => ['[', ']']
  | .array (item :: items) =>
      '[' :: indentedItems (level + 1) (item :: items) ++ lineBreak level ++ [']']
  | .object [] => ['\x7b', '\x7d']
  | .object (member :: members) =>
      '\x7b' :: indentedMembers (level + 1) (member :: members) ++ lineBreak level ++ ['\x7d']
  | .null | .unreadable => "null".toList
  | .bool true => "true".toList
  | .bool false => "false".toList
  | .number literal => literal.toList
  | .string value => stringChars value

def indentedItems (level : Nat) : List Json → List Char
  | [] => []
  | [item] => lineBreak level ++ indentedChars level item
  | item :: next :: items =>
      lineBreak level ++ indentedChars level item ++ ',' :: indentedItems level (next :: items)

def indentedMembers (level : Nat) : List (String × Json) → List Char
  | [] => []
  | [(name, value)] => lineBreak level ++ stringChars name ++ ": ".toList ++ indentedChars level value
  | (name, value) :: next :: members =>
      lineBreak level ++ stringChars name ++ ": ".toList ++ indentedChars level value ++
        ',' :: indentedMembers level (next :: members)

end

/-- A document with one item or member a line. -/
def indented (json : Json) : String := String.ofList (indentedChars 0 json)

end IntentRouting.Json
