/-!
# Blanks

The characters that separate words and may not stand in an identifier: the ones with the Unicode
property White_Space, and the control characters of category Cc. Trimming and splitting into words
are defined on lists of characters.
-/

namespace IntentRouting.Text

/-- The Unicode property White_Space. -/
def isBlank (c : Char) : Bool :=
  let n := c.toNat
  (9 ≤ n && n ≤ 13) || n == 0x20 || n == 0x85 || n == 0xa0 || n == 0x1680 ||
    (0x2000 ≤ n && n ≤ 0x200a) || n == 0x2028 || n == 0x2029 || n == 0x202f || n == 0x205f ||
    n == 0x3000

/-- The general category Cc. -/
def isControl (c : Char) : Bool :=
  let n := c.toNat
  n ≤ 0x1f || (0x7f ≤ n && n ≤ 0x9f)

/-- Characters without the blanks at the front. -/
def trimStart (characters : List Char) : List Char := characters.dropWhile isBlank

def trimEnd (characters : List Char) : List Char :=
  characters.foldr (fun c rest => if rest.isEmpty && isBlank c then [] else c :: rest) []

/-- Characters without the blanks at both ends. -/
def trim (characters : List Char) : List Char := trimEnd (trimStart characters)

/-- The maximal runs of characters that are not blank, in order. -/
def words (characters : List Char) : List (List Char) :=
  characters.foldr step [] |>.filter (!·.isEmpty)
where
  /-- Puts one character before the words already read; an empty word marks a gap. -/
  step (c : Char) : List (List Char) → List (List Char)
    | [] => if isBlank c then [] else [[c]]
    | word :: rest => if isBlank c then [] :: word :: rest else (c :: word) :: rest

end IntentRouting.Text
