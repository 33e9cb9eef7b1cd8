import IntentRouting.Json.Number

/-!
# Records in a document

A record with named fields is read from an object, where members with other names are passed over
and a field may not be given twice, or from an array that lists the fields in their order. A field
that an object leaves out counts as null where null is allowed; an array may end early only before
fields that have a default.

A tagged value is a record of a tag and a content, and the tag says how the content is read. Where
the content of an object stands before its tag, it is held back until the tag is known. What is held
back has to be readable in all its parts, those that are passed over included, and the tags inside
it may be written in more ways.
-/

namespace IntentRouting.Json

/-- What a document says about one field. -/
inductive Slot where
  | given (value : Json)
  | absent
  /-- The array ended before the field. -/
  | cut

namespace Slot

/-- A field that has to be given. -/
def required {α : Type} (decode : Json → Option α) : Slot → Option α
  | .given value => decode value
  | _ => none

/-- A field that is none if it is null or left out. -/
def optional {α : Type} (decode : Json → Option α) : Slot → Option (Option α)
  | .given .null => some none
  | .given value => (decode value).map some
  | .absent => some none
  | .cut => none

def withDefault {α : Type} (default : α) (decode : Json → Option α) : Slot → Option α
  | .given value => decode value
  | _ => some default

end Slot

/-- The values of the members of a name. -/
def valuesOf (name : String) (members : List (String × Json)) : List Json :=
  members.filterMap fun member => if member.1 = name then some member.2 else none

/-- What the members of an object say about a field; it may not be given twice. -/
def slot? (members : List (String × Json)) (name : String) : Option Slot :=
  match valuesOf name members with
  | [] => some .absent
  | [value] => some (.given value)
  | _ => none

/-- What the items of an array say about fields; there may be no more items than fields. -/
def positionalSlots : List String → List Json → Option (List Slot)
  | [], [] => some []
  | [], _ :: _ => none
  | _ :: names, [] => (positionalSlots names []).map (.cut :: ·)
  | _ :: names, item :: items => (positionalSlots names items).map (.given item :: ·)

/-- What a record says about its fields, in their order. -/
def slots? (names : List String) : Json → Option (List Slot)
  | .object members => names.mapM (slot? members)
  | .array items => positionalSlots names items
  | _ => none

def nullable? {α : Type} (decode : Json → Option α) : Json → Option (Option α)
  | .null => some none
  | value => (decode value).map some

def bool? : Json → Option Bool
  | .bool value => some value
  | _ => none

def string? : Json → Option String
  | .string value => some value
  | _ => none

def list? {α : Type} (decode : Json → Option α) : Json → Option (List α)
  | .array items => items.mapM decode
  | _ => none

/-- The name of an alternative without contents: a text, or an object with that name and null. -/
def alternative? : Json → Option String
  | .string name => some name
  | .object [(name, .null)] => some name
  | _ => none

/-! ## Tagged values -/

/-- The parts of a tagged value. -/
structure Tagged where
  tag : String
  content : Json
  /-- Whether the content was held back, or is part of something that was. -/
  isHeld : Bool

namespace Tagged

/-- The tag of an object. In what is held back, an empty object may stand in the place of null. -/
def tagOfMember? (isHeld : Bool) : Json → Option String
  | .object [(name, .object [])] => if isHeld then some name else none
  | json => json.alternative?

/-- The tag at the front of an array: a text, or in what is held back its number among all tags. -/
def tagOfItem? (tags : List String) (isHeld : Bool) : Json → Option String
  | .string tag => some tag
  | json => do
      let n ← json.int? ⟨0, tags.length⟩
      if isHeld then tags[n.toNat]? else none

/-- Whether the first of two names stands before the second one in an object. -/
def standsBefore (first second : String) (members : List (String × Json)) : Bool :=
  (members.find? fun member => member.1 = first || member.1 = second).any (·.1 = first)

/-- Reads the parts of a tagged value under their names, given all tags. -/
def ofJson? (tagName contentName : String) (tags : List String) (isHeld : Bool) :
    Json → Option Tagged
  | .object members => do
      let tag ← (← slot? members tagName).required (tagOfMember? isHeld)
      let content ← (← slot? members contentName).required some
      if !isHeld && standsBefore contentName tagName members then
        if content.isReadable then some ⟨tag, content, true⟩ else none
      else some ⟨tag, content, isHeld⟩
  | .array [tag, content] => do some ⟨← tagOfItem? tags isHeld tag, content, isHeld⟩
  | _ => none

end Tagged

end IntentRouting.Json
