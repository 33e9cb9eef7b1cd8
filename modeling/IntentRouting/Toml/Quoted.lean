import IntentRouting.Text.Split

/-!
# Strings of a document

A string of a TOML document stands between marks. Between single marks everything is taken as it is,
between double ones a backslash begins an escape, and with three marks on either side line breaks
may stand in the string. Writing takes the first of these forms that needs no escape and falls back
to double marks with escapes: double marks, single marks, three double marks, three single marks.
-/

namespace IntentRouting.Toml

/-- A control character that can only be written by an escape. The tab and the line break are none.
-/
def needsEscape (c : Char) : Bool := (c.toNat ≤ 0x1f && c != '\t' && c != '\n') || c.toNat = 0x7f

/-- The length of the longest run of a character, given the run that ends before the characters. -/
def longestRun (mark : Char) (run : Nat) : List Char → Nat
  | [] => run
  | c :: rest =>
      if c = mark then longestRun mark (run + 1) rest else max run (longestRun mark 0 rest)

/-- A number of four digits in upper-case hexadecimal. -/
def fourDigits (n : Nat) : List Char :=
  let digits := (Nat.toDigits 16 n).map fun c => if 'a' ≤ c && c ≤ 'f' then Char.ofNat (c.toNat - 32) else c
  List.replicate (4 - digits.length) '0' ++ digits

/-- A character with the escape that it needs whatever stands around it, if it needs one. -/
def escape (c : Char) : List Char :=
  if c.toNat = 8 then ['\\', 'b']
  else if c = '\t' then ['\\', 't']
  else if c.toNat = 12 then ['\\', 'f']
  else if c = '\r' then ['\\', 'r']
  else if c = '\\' then ['\\', '\\']
  else if needsEscape c then ['\\', 'u'] ++ fourDigits c.toNat
  else [c]

/-- The characters of a line between double marks. -/
def escapeLine (characters : List Char) : List Char :=
  characters.flatMap fun c =>
    if c = '"' then ['\\', '"'] else if c = '\n' then ['\\', 'n'] else escape c

/-- Lines between three double marks. Line breaks stand for themselves, and so do two marks in a
row; the number of marks before the characters is given, and starts again after an escape. -/
def escapeLines (marks : Nat) : List Char → List Char
  | [] => []
  | c :: rest =>
      if c = '"' then
        if marks < 2 then c :: escapeLines (marks + 1) rest else '\\' :: c :: escapeLines 0 rest
      else escape c ++ escapeLines 0 rest

/-- Characters between three marks, on a line of their own if there are line breaks in them. -/
def enclose (mark : Char) (lines : Bool) (content : List Char) : List Char :=
  List.replicate 3 mark ++ (if lines then ['\n'] else []) ++ content ++ List.replicate 3 mark

def quotedChars (characters : List Char) : List Char :=
  let controls := characters.any needsEscape
  let backslash := characters.contains '\\'
  let lines := characters.contains '\n'
  let single := longestRun '\'' 0 characters
  let double := longestRun '"' 0 characters
  if !controls && !backslash && double = 0 && !lines then '"' :: escapeLine characters ++ ['"']
  else if !controls && single = 0 && !lines then '\'' :: characters ++ ['\'']
  else if !controls && !backslash && double ≤ 2 then enclose '"' lines (escapeLines 0 characters)
  else if !controls && single ≤ 2 then enclose '\'' lines characters
  else if lines then enclose '"' lines (escapeLines 0 characters)
  else '"' :: escapeLine characters ++ ['"']

def quoted (text : String) : String := Text.onChars quotedChars text

end IntentRouting.Toml
