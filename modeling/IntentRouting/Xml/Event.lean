import IntentRouting.Text.Blank
import IntentRouting.Xml.Attribute

/-!
# Events of a document

A document is read as a sequence of tags. Text between tags, comments, character data, declarations
and processing instructions are passed over. A tag that ends an element has to name the one that was
begun last; elements that are still open at the end of the document do not matter, and neither does
a tag that is cut off there. At a fault reading stops, and the events before it stand.
-/

namespace IntentRouting.Xml

/-- The name and the attributes at the beginning of an element. -/
structure Tag where
  name : String
  attributes : List Attribute
deriving DecidableEq, Repr

def Tag.attribute? (tag : Tag) (name : String) : Option String :=
  (tag.attributes.find? fun entry => entry.name = name).map (·.value)

/-- A tag of a document. -/
inductive Event where
  /-- The beginning of an element. -/
  | opening (tag : Tag)
  /-- An element without content. -/
  | childless (tag : Tag)
  /-- The end of an element. -/
  | closing (name : String)
deriving DecidableEq, Repr

/-- The events of a document up to its end or to a fault. -/
structure Reading where
  events : List Event
  isFaulty : Bool
deriving DecidableEq, Repr

namespace Event

/-- Takes a tag up to its closing bracket; between quotation marks a bracket does not count. The
mark that is open is given. -/
def cutTag (mark : Option Char) : List Char → List Char × List Char
  | [] => ([], [])
  | c :: rest =>
      match mark with
      | some mark =>
          let (tag, after) := cutTag (if c = mark then none else some mark) rest
          (c :: tag, after)
      | none =>
          if c = '>' then ([], rest)
          else
            let (tag, after) := cutTag (if c = '"' || c = '\'' then some c else none) rest
            (c :: tag, after)

/-- Takes a document type up to its closing bracket, given how many brackets are open inside it. -/
def cutDoctype (depth : Nat) : List Char → Option (List Char × List Char)
  | [] => none
  | c :: rest =>
      match c, depth with
      | '>', 0 => some ([], rest)
      | _, _ =>
          (cutDoctype (if c = '<' then depth + 1 else if c = '>' then depth - 1 else depth) rest).map
            fun (content, after) => (c :: content, after)

/-- Strips a beginning whose letters may be of either case; the beginning is given in lower case. -/
def stripAnyCase? (start characters : List Char) : Option (List Char) :=
  if (characters.take start.length).map Text.asciiLower = start then
    some (characters.drop start.length)
  else none

/-- The rest after a comment, after its `!`. -/
def skipComment? (characters : List Char) : Option (List Char) := do
  let content ← Text.strip? "--".toList characters
  let (_, after) ← Text.cutText? "-->".toList content
  some after

/-- The rest after character data, after its `!`. -/
def skipCharacterData? (characters : List Char) : Option (List Char) := do
  let content ← stripAnyCase? "[cdata[".toList characters
  let (_, after) ← Text.cutText? "]]>".toList content
  some after

/-- The rest after a document type, after its `!`. It has to name something. -/
def skipDoctype? (characters : List Char) : Option (List Char) := do
  let (content, after) ← cutDoctype 0 characters
  let name ← stripAnyCase? "doctype".toList content
  if name.all isSpace then none else some after

/-- The rest after a declaration, after its `!`. -/
def skipDeclaration? (characters : List Char) : Option (List Char) :=
  match characters with
  | '-' :: _ => skipComment? characters
  | '[' :: _ => skipCharacterData? characters
  | _ => skipDoctype? characters

/-- The rest after a processing instruction, after its first `?`. It has at least one character
besides the question mark at its end. -/
def skipInstruction? (characters : List Char) : Option (List Char) :=
  let (content, after) := Text.cut '>' characters
  match content.reverse with
  | '?' :: _ :: _ => some (after.getD [])
  | _ => none

/-- The name at the end of an element, without the blanks after it, unless there is nothing else. -/
def closingName (content : List Char) : List Char :=
  if content.all isSpace then content else (content.reverse.dropWhile isSpace).reverse

/-- The beginning of an element, whose content is given. -/
def readTag (content : List Char) : Tag :=
  let name := content.takeWhile fun c => !isSpace c
  ⟨String.ofList name, Attribute.readAll (content.drop name.length)⟩

/-- The event of a tag at whose end no slash stands, or of one at whose end a slash stood. -/
def ofTag (content : List Char) : Event :=
  match content.reverse with
  | '/' :: rest => .childless (readTag rest.reverse)
  | _ => .opening (readTag content)

/-- Puts an event before those that follow it. -/
def before (event : Event) (reading : Reading) : Reading :=
  { reading with events := event :: reading.events }

/-- The reading that stops at a fault. -/
def fault : Reading := ⟨[], true⟩

/-- Reads events, given the names of the elements that are open, the innermost first. Each step
takes at least one character, so as many steps as there are characters are enough. -/
def readAfter : Nat → List String → List Char → Reading
  | 0, _, _ => ⟨[], false⟩
  | steps + 1, open', characters =>
      match characters.dropWhile (· != '<') with
      | [] => ⟨[], false⟩
      | [_] => ⟨[], false⟩
      | _ :: '!' :: rest =>
          match skipDeclaration? rest with
          | some after => readAfter steps open' after
          | none => fault
      | _ :: '?' :: rest =>
          match skipInstruction? rest with
          | some after => readAfter steps open' after
          | none => fault
      | _ :: '/' :: rest =>
          let (content, after) := Text.cut '>' rest
          let name := String.ofList (closingName content)
          match open' with
          | expected :: open' =>
              if name = expected then before (.closing name) (readAfter steps open' (after.getD []))
              else fault
          | [] => fault
      | _ :: rest =>
          let (content, after) := cutTag none rest
          let event := ofTag content
          match event with
          | .opening tag => before event (readAfter steps (tag.name :: open') after)
          | _ => before event (readAfter steps open' after)

def readAll (text : String) : Reading := readAfter (text.toList.length + 1) [] text.toList

end Event

end IntentRouting.Xml
