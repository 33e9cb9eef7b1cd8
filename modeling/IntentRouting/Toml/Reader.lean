import IntentRouting.Toml.Scalar
import IntentRouting.Toml.Tree

/-!
# Reading documents

A document is a sequence of lines: assignments, headers of tables, and lines with nothing but a
comment. A key is a path of names between points. Values may be arrays, which may extend over lines,
and tables on one line; both are nested no deeper than a limit.
-/

namespace IntentRouting.Toml

/-- How deeply values are nested, and how many names a path has. -/
def nestingLimit : Nat := 79

/-- A character of a name without marks. -/
def isBare (c : Char) : Bool := Text.isAsciiAlphanumeric c || c = '_' || c = '-'

def name? (characters : List Char) : Option (String × List Char) :=
  match characters with
  | c :: _ =>
      if c = '"' || c = '\'' then
        (lineString? characters).map fun (name, rest) => (String.ofList name, rest)
      else
        let name := characters.takeWhile isBare
        if name.isEmpty then none
        else some (String.ofList name, characters.dropWhile isBare)
  | [] => none

/-- Reads a path: at least one name, blanks around each included. Each step takes at least one
character. -/
def path? : Nat → List Char → Option (List String × List Char)
  | 0, _ => none
  | steps + 1, characters => do
      let (name, rest) ← name? (skipSpace characters)
      match skipSpace rest with
      | '.' :: rest => do
          let (path, rest) ← path? steps rest
          some (name :: path, rest)
      | rest => some ([name], rest)

/-- Reads the path before a mark, as the path of a table and a name in it. -/
def key? (mark : List Char) (characters : List Char) : Option (List String × String × List Char) := do
  let (path, rest) ← path? (characters.length + 1) characters
  let rest ← Text.strip? mark rest
  let last ← path.getLast?
  if path.length ≤ nestingLimit then some (path.dropLast, last, rest) else none

/-- The rest after a comment, if there is one. -/
def skipComment (characters : List Char) : List Char :=
  match characters with
  | '#' :: rest => rest.dropWhile isText
  | _ => characters

/-- The rest of some lines after blanks, comments and line breaks. Each step takes at least one
character. -/
def skipLines : Nat → List Char → List Char
  | 0, characters => characters
  | steps + 1, characters =>
      let rest := skipSpace characters
      match rest with
      | '#' :: _ => skipLines steps (skipComment rest)
      | _ =>
          match newline? rest with
          | some rest => skipLines steps rest
          | none => rest

/-- The rest after blanks, a comment and a line break, or nothing at the end of the document. -/
def endLine? (characters : List Char) : Option (List Char) :=
  match skipComment (skipSpace characters) with
  | [] => some []
  | rest => newline? rest

mutual

/-- Reads a value. The first number bounds the steps, the second the depth. -/
def value? : Nat → Nat → List Char → Option (Toml × List Char)
  | 0, _, _ => none
  | steps + 1, depth, characters =>
      match characters with
      | '[' :: rest =>
          match depth with
          | 0 => none
          | depth + 1 => (items? steps depth rest).map fun (items, rest) => (.array items, rest)
      | '\x7b' :: rest =>
          match depth with
          | 0 => none
          | depth + 1 =>
              match skipSpace rest with
              | '\x7d' :: rest => some (.table [], rest)
              | _ =>
                  (members? steps depth [] rest).map fun (members, rest) =>
                    (.table (finishMembers members), rest)
      | _ => scalar? characters

/-- Reads the items of an array, up to the bracket that closes it. A comma may stand after the last.
-/
def items? : Nat → Nat → List Char → Option (List Toml × List Char)
  | 0, _, _ => none
  | steps + 1, depth, characters =>
      match skipLines (characters.length + 1) characters with
      | ']' :: rest => some ([], rest)
      | rest => do
          let (item, rest) ← value? steps depth rest
          match skipLines (rest.length + 1) rest with
          | ',' :: rest => do
              let (items, rest) ← items? steps depth rest
              some (item :: items, rest)
          | ']' :: rest => some ([item], rest)
          | _ => none

/-- Reads the members of a table on one line after those already read, up to the brace that closes
it. -/
def members? : Nat → Nat → Members → List Char → Option (Members × List Char)
  | 0, _, _, _ => none
  | steps + 1, depth, members, characters => do
      let (path, key, rest) ← key? ['='] characters
      let (value, rest) ← value? steps depth (skipSpace rest)
      let members ← assign path key value .header members
      match skipSpace rest with
      | ',' :: rest => members? steps depth members rest
      | '\x7d' :: rest => some (members, rest)
      | _ => none

end

/-- Reads the lines of a document after what is already read. The path is that of the header above
the lines, and each step takes at least one character. -/
def lines : Nat → List String → Members → List Char → Option Members
  | 0, _, _, _ => none
  | steps + 1, header, members, characters =>
      match skipSpace characters with
      | [] => some members
      | '[' :: '[' :: rest => do
          let (path, key, rest) ← key? "]]".toList rest
          lines steps (path ++ [key]) (← addTable path key members) (← endLine? rest)
      | '[' :: rest => do
          let (path, key, rest) ← key? [']'] rest
          lines steps (path ++ [key]) (← openTable path key members) (← endLine? rest)
      | c :: rest =>
          if c = '#' || (newline? (c :: rest)).isSome then do
            lines steps header members (← endLine? (c :: rest))
          else do
            let (path, key, rest) ← key? ['='] (c :: rest)
            let (value, rest) ← value? (rest.length + 1) nestingLimit (skipSpace rest)
            lines steps header
              (← changeAt .implied (assign path key value) header .header members) (← endLine? rest)

/-- Characters without the mark that may stand at the beginning of a document. -/
def withoutMark : List Char → List Char
  | c :: rest => if c.toNat = 0xfeff then rest else c :: rest
  | [] => []

def read? (text : String) : Option Toml :=
  let characters := withoutMark text.toList
  (lines (characters.length + 1) [] [] characters).map fun members => .table (finishMembers members)

end IntentRouting.Toml
