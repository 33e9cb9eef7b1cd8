import IntentRouting.Number.Integer

/-!
# JSON documents

A document as a tree. Members of an object keep the order in which they are written, a repeated name
included, and a number is kept as its literal: what a literal denotes depends on the field that
reads it. What is written correctly but has no value has a leaf of its own, because a reader may
still pass over it.
-/

namespace IntentRouting

/-- A JSON value. -/
inductive Json where
  | null
  | bool (value : Bool)
  /-- A number by the characters that write it. -/
  | number (literal : String)
  | string (value : String)
  | array (items : List Json)
  | object (members : List (String × Json))
  /-- What can be passed over but not read: a string with half of a surrogate pair, an object with
  such a name, a number too large for double precision, and what is nested too deeply. -/
  | unreadable

namespace Json

def int (n : Int) : Json := .number (Integer.text n)

def nat (n : Nat) : Json := .int n

def ofOption {α : Type} (encode : α → Json) : Option α → Json
  | none => .null
  | some value => encode value

def optionalString (text : Option String) : Json := ofOption .string text

def list {α : Type} (encode : α → Json) (values : List α) : Json := .array (values.map encode)

def strings (texts : List String) : Json := list .string texts

mutual

/-- How deeply arrays and objects are nested in a value. -/
def depth : Json → Nat
  | .array items => itemsDepth items + 1
  | .object members => membersDepth members + 1
  | _ => 0

def itemsDepth : List Json → Nat
  | [] => 0
  | item :: items => max item.depth (itemsDepth items)

def membersDepth : List (String × Json) → Nat
  | [] => 0
  | (_, value) :: members => max value.depth (membersDepth members)

end

mutual

/-- A value that can be read in all its parts. -/
def isReadable : Json → Bool
  | .array items => areItemsReadable items
  | .object members => areMembersReadable members
  | .unreadable => false
  | _ => true

/-- Items that can be read in all their parts. -/
def areItemsReadable : List Json → Bool
  | [] => true
  | item :: items => item.isReadable && areItemsReadable items

/-- Members that can be read in all their parts. -/
def areMembersReadable : List (String × Json) → Bool
  | [] => true
  | (_, value) :: members => value.isReadable && areMembersReadable members

end

end Json

end IntentRouting
