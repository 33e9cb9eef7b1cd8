/-!
# Cutting text

Cuts at a separator character: at its first occurrence, at its last one, or at a fixed beginning.
Each function says what remains of the characters and puts nothing else in their place, so that
appending the parts again, with the separator between them, gives the characters back.
-/

namespace IntentRouting.Text

/-- The characters before the first separator, and those after it if there is one. -/
def cut (separator : Char) : List Char → List Char × Option (List Char)
  | [] => ([], none)
  | c :: rest =>
      if c = separator then ([], some rest)
      else ((c :: (cut separator rest).1), (cut separator rest).2)

/-- The two sides of the first separator, if there is one. -/
def cut? (separator : Char) (characters : List Char) : Option (List Char × List Char) :=
  match cut separator characters with
  | (before, some after) => some (before, after)
  | (_, none) => none

/-- The two sides of the last separator, if there is one. -/
def cutLast? (separator : Char) : List Char → Option (List Char × List Char)
  | [] => none
  | c :: rest =>
      match cutLast? separator rest with
      | some (before, after) => some (c :: before, after)
      | none => if c = separator then some ([], rest) else none

/-- What follows a given beginning, if the characters begin with it. -/
def strip? : List Char → List Char → Option (List Char)
  | [], characters => some characters
  | _ :: _, [] => none
  | expected :: start, c :: rest => if c = expected then strip? start rest else none

/-- The two sides of the first place where a given text stands, if there is one. -/
def cutText? (text : List Char) : List Char → Option (List Char × List Char)
  | [] => (strip? text []).map ([], ·)
  | c :: rest =>
      match strip? text (c :: rest) with
      | some after => some ([], after)
      | none => (cutText? text rest).map fun (before, after) => (c :: before, after)

/-- Splits at the last place where a given text begins. -/
def cutLastText? (text : List Char) : List Char → Option (List Char × List Char)
  | [] => (strip? text []).map ([], ·)
  | c :: rest =>
      match cutLastText? text rest with
      | some (before, after) => some (c :: before, after)
      | none => (strip? text (c :: rest)).map ([], ·)

/-- Splits at every separator: one part more than there are separators. -/
def split (separator : Char) : List Char → List (List Char)
  | [] => [[]]
  | c :: rest =>
      match split separator rest with
      | [] => [[c]]
      | part :: parts => if c = separator then [] :: part :: parts else (c :: part) :: parts

section Split

variable {separator : Char} {left right : List Char}

@[simp]
theorem split_ne_nil : split separator left ≠ [] := by
  cases left with
  | nil => simp [split]
  | cons c rest =>
      rw [split]
      split
      · simp
      · split <;> simp

@[simp]
theorem split_cons_separator :
    split separator (separator :: right) = [] :: split separator right := by
  rw [split]
  split
  · rename_i none
    exact absurd none split_ne_nil
  · rename_i parts
    rw [parts, if_pos rfl]

theorem split_append_separator :
    split separator (left ++ separator :: right) = split separator left ++
      split separator right := by
  induction left with
  | nil => simp [split]
  | cons c left ih =>
      rw [List.cons_append, split, split, ih]
      cases parts : split separator left with
      | nil => exact absurd parts split_ne_nil
      | cons part parts =>
          rw [List.cons_append]
          dsimp only
          split <;> rfl

theorem split_of_not_mem (absent : separator ∉ left) : split separator left = [left] := by
  induction left with
  | nil => rfl
  | cons c left ih =>
      rw [List.mem_cons, not_or] at absent
      rw [split, ih absent.2]
      exact if_neg (Ne.symm absent.1)

end Split

/-- Parts put together with a separator between two of them. -/
def join (separator : List Char) : List (List Char) → List Char
  | [] => []
  | [part] => part
  | part :: next :: parts => part ++ separator ++ join separator (next :: parts)

/-- Lower case of the letters A to Z; every other character is kept. -/
def asciiLower (c : Char) : Char :=
  if 'A' ≤ c && c ≤ 'Z' then Char.ofNat (c.toNat + 32) else c

def isAsciiLetter (c : Char) : Bool := ('A' ≤ c && c ≤ 'Z') || ('a' ≤ c && c ≤ 'z')

def isAsciiDigit (c : Char) : Bool := '0' ≤ c && c ≤ '9'

def isAsciiAlphanumeric (c : Char) : Bool := isAsciiLetter c || isAsciiDigit c

def onChars (transform : List Char → List Char) (text : String) : String :=
  String.ofList (transform text.toList)

/-- Texts put together with a separator between two of them. -/
def joinText (separator : String) (parts : List String) : String :=
  String.ofList (join separator.toList (parts.map String.toList))

end IntentRouting.Text
