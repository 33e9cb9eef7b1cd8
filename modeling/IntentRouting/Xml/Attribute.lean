import IntentRouting.Text.Split

/-!
# Attributes of a tag

An attribute is a name, an equals sign and a value between two marks of the same kind, with blanks
allowed around the sign. What is not of this form is passed over, and so is an attribute whose name
was there before; reading goes on after the next blank. A value is taken as it is written, entities
included.
-/

namespace IntentRouting.Xml

/-- A blank between the parts of a tag. -/
def isSpace (c : Char) : Bool := c = ' ' || c = '\t' || c = '\n' || c = '\r'

/-- A name and its value. -/
structure Attribute where
  name : String
  value : String
deriving DecidableEq, Repr

namespace Attribute

def endsName (c : Char) : Bool := c = '=' || isSpace c

def skipWord (characters : List Char) : List Char := characters.dropWhile fun c => !isSpace c

/-- Reads attributes, given the names that were there before. Each step takes at least one
character, so as many steps as there are characters are enough. -/
def readAfter : Nat → List (List Char) → List Char → List Attribute
  | 0, _, _ => []
  | steps + 1, seen, characters =>
      match characters.dropWhile isSpace with
      | [] => []
      | first :: rest =>
          let name := first :: rest.takeWhile fun c => !endsName c
          match (rest.dropWhile fun c => !endsName c).dropWhile isSpace with
          | [] => []
          | '=' :: afterSign =>
              if seen.contains name then readAfter steps seen (skipWord afterSign)
              else
                match afterSign.dropWhile isSpace with
                | [] => []
                | mark :: afterMark =>
                    if mark = '"' || mark = '\'' then
                      match Text.cut mark afterMark with
                      | (value, some after) =>
                          ⟨String.ofList name, String.ofList value⟩ ::
                            readAfter steps (name :: seen) after
                      | (_, none) => []
                    else readAfter steps (name :: seen) (skipWord afterMark)
          | other => readAfter steps seen other

/-- The attributes that some characters write. -/
def readAll (characters : List Char) : List Attribute := readAfter characters.length [] characters

end Attribute

end IntentRouting.Xml
