import IntentRouting.Intent.Bundle
import IntentRouting.Json.Number
import IntentRouting.Json.Record

/-!
# Intents as documents

The JSON form of an intent and of everything that it holds. A typed value is an object of its type
and its content, a set of flags is its text, and fields without a value are null. Reading accepts
what writing produces, and more: fields in any order, fields left out where null is allowed, records
as arrays. Reading goes no deeper than the document is nested, which bounds the recursion.
-/

namespace IntentRouting

def Uri.toJson (uri : Uri) : Json := .string uri.text

def Uri.ofJson? : Json → Option Uri
  | .string text => Uri.parse? text
  | _ => none

namespace Component

def toJson (component : Component) : Json :=
  .object [("package", .string component.package), ("class", .string component.className)]

/-- Reads the document of a component; the class is taken as it is. -/
def ofJson? (json : Json) : Option Component := do
  match ← json.slots? ["package", "class"] with
  | [package, className] =>
      some ⟨← package.required Json.string?, ← className.required Json.string?⟩
  | _ => none

end Component

namespace Bounds

def toJson (bounds : Bounds) : Json :=
  .object [("left", .int bounds.left.toInt), ("top", .int bounds.top.toInt),
    ("right", .int bounds.right.toInt), ("bottom", .int bounds.bottom.toInt)]

def sideOfJson? (json : Json) : Option Int32 := (json.int? sides).map Int32.ofInt

def ofJson? (json : Json) : Option Bounds := do
  match ← json.slots? ["left", "top", "right", "bottom"] with
  | [left, top, right, bottom] =>
      some ⟨← left.required sideOfJson?, ← top.required sideOfJson?,
        ← right.required sideOfJson?, ← bottom.required sideOfJson?⟩
  | _ => none

end Bounds

namespace FlagSet

variable {vocabulary : FlagVocabulary}

def toJson (flags : FlagSet vocabulary) : Json := .string flags.text

def ofJson? : Json → Option (FlagSet vocabulary)
  | .string text => parse? text
  | _ => none

end FlagSet

namespace Categories

def toJson (categories : Categories) : Json := .strings categories.names

/-- Reads the document of a set of categories, in any order. -/
def ofJson? (json : Json) : Option Categories := (json.list? Json.string?).map ofList

end Categories

/-- The names of all types of values in a document, in their order. -/
def Value.typeTags : List String :=
  ["bool", "byte", "short", "char", "int", "long", "float", "double", "str", "blob", "str_list", "uri",
    "intent", "nested"]

/-- The document of a typed value: the name of its type, and its content. -/
def Value.tagged (type : String) (content : Json) : Json :=
  .object [("type", .string type), ("value", content)]

mutual

def Intent.toJson : Intent → Json
  | ⟨action, data, mimeType, identifier, categories, package, component, selector, flags, extras, clip,
      bounds⟩ =>
    .object [
      ("action", .optionalString action), ("data", .ofOption Uri.toJson data),
      ("mime_type", .optionalString mimeType), ("identifier", .optionalString identifier),
      ("categories", categories.toJson), ("package", .optionalString package),
      ("component", .ofOption Component.toJson component),
      ("selector", Intent.optionToJson selector), ("flags", flags.toJson),
      ("extras", extras.toJson), ("clip_data", Clip.optionToJson clip),
      ("source_bounds", .ofOption Bounds.toJson bounds)]

def Intent.optionToJson : Option Intent → Json
  | none => .null
  | some intent => intent.toJson

def Bundle.toJson : Bundle → Json
  | ⟨entries⟩ => .object (Bundle.entriesToJson entries)

def Bundle.entriesToJson : List (String × Value) → List (String × Json)
  | [] => []
  | (key, value) :: entries => (key, value.toJson) :: Bundle.entriesToJson entries

def Value.toJson : Value → Json
  | .bool value => Value.tagged "bool" (.bool value)
  | .byte value => Value.tagged "byte" (.int value.toInt)
  | .short value => Value.tagged "short" (.int value.toInt)
  | .char value => Value.tagged "char" (.string (String.singleton value))
  | .int value => Value.tagged "int" (.int value.toInt)
  | .long value => Value.tagged "long" (.int value.toInt)
  | .float value => Value.tagged "float" (.ofSingle value)
  | .double value => Value.tagged "double" (.ofDouble value)
  | .string value => Value.tagged "str" (.string value)
  | .blob value => Value.tagged "blob" (.list (fun byte => .nat byte.toNat) value)
  | .strings value => Value.tagged "str_list" (.strings value)
  | .uri value => Value.tagged "uri" value.toJson
  | .intent value => Value.tagged "intent" value.toJson
  | .bundle value => Value.tagged "nested" value.toJson

def Clip.optionToJson : Option Clip → Json
  | none => .null
  | some clip => clip.toJson

def Clip.toJson : Clip → Json
  | ⟨label, mimeTypes, items⟩ =>
      .object [("label", .optionalString label), ("mime_types", .strings mimeTypes),
        ("items", .array (Clip.itemsToJson items))]

def Clip.itemsToJson : List ClipItem → List Json
  | [] => []
  | item :: items => item.toJson :: Clip.itemsToJson items

def ClipItem.toJson : ClipItem → Json
  | ⟨text, uri, intent⟩ =>
      .object [("text", .optionalString text), ("uri", .ofOption Uri.toJson uri),
        ("intent", Intent.optionToJson intent)]

end

def charOfJson? : Json → Option Char
  | .string text =>
      match text.toList with
      | [c] => some c
      | _ => none
  | _ => none

def octetBounds : Integer.Bounds := .unsigned 8

def octetOfJson? (json : Json) : Option UInt8 := (json.int? octetBounds).map fun n => .ofNat n.toNat

/-- Reads the content of a value of a type without nesting. -/
def Value.plainOfJson? (type : String) (content : Json) : Option Value :=
  if type = "bool" then content.bool?.map .bool
  else if type = "byte" then (content.int? byteBounds).map fun n => .byte (Int8.ofInt n)
  else if type = "short" then (content.int? shortBounds).map fun n => .short (Int16.ofInt n)
  else if type = "char" then (charOfJson? content).map .char
  else if type = "int" then (content.int? intBounds).map fun n => .int (Int32.ofInt n)
  else if type = "long" then (content.int? longBounds).map fun n => .long (Int64.ofInt n)
  else if type = "float" then (content.real? .single).map .float
  else if type = "double" then (content.real? .double).map .double
  else if type = "str" then content.string?.map .string
  else if type = "blob" then (content.list? octetOfJson?).map .blob
  else if type = "str_list" then (content.list? Json.string?).map .strings
  else if type = "uri" then (Uri.ofJson? content).map .uri
  else none

/-- Reads a bundle, given how its values are read. -/
def Bundle.ofMembers? (decode : Json → Option Value) (members : List (String × Json)) :
    Option Bundle := do
  let entries ← members.mapM fun member => do
    let value ← decode member.2
    some (member.1, value)
  some (Bundle.ofList entries)

/-- Reads an item of a clip, given how intents are read. -/
def ClipItem.decode? (decode : Json → Option Intent) (json : Json) : Option ClipItem := do
  match ← json.slots? ["text", "uri", "intent"] with
  | [text, uri, intent] =>
      some ⟨← text.optional Json.string?, ← uri.optional Uri.ofJson?, ← intent.optional decode⟩
  | _ => none

def Clip.decode? (decode : Json → Option Intent) (json : Json) : Option Clip := do
  match ← json.slots? ["label", "mime_types", "items"] with
  | [label, mimeTypes, items] =>
      some ⟨← label.optional Json.string?, ← mimeTypes.required (·.list? Json.string?),
        ← items.required (·.list? (ClipItem.decode? decode))⟩
  | _ => none

mutual

/-- Reads an intent whose document is nested at most as deeply as a bound says, and may have been
held back. -/
def Intent.decode? (isHeld : Bool) : Nat → Json → Option Intent
  | 0, _ => none
  | depth + 1, json => do
      match ← json.slots? ["action", "data", "mime_type", "identifier", "categories", "package",
          "component", "selector", "flags", "extras", "clip_data", "source_bounds"] with
      | [action, data, mimeType, identifier, categories, package, component, selector, flags, extras,
          clip, bounds] =>
          some {
            action := ← action.optional Json.string?
            data := ← data.optional Uri.ofJson?
            mimeType := ← mimeType.optional Json.string?
            identifier := ← identifier.optional Json.string?
            categories := ← categories.required Categories.ofJson?
            package := ← package.optional Json.string?
            component := ← component.optional Component.ofJson?
            selector := ← selector.optional (Intent.decode? isHeld depth)
            flags := ← flags.required FlagSet.ofJson?
            extras := ← extras.required (Bundle.decode? isHeld depth)
            clip := ← clip.optional (Clip.decode? (Intent.decode? isHeld depth))
            bounds := ← bounds.optional Bounds.ofJson? }
      | _ => none

/-- Reads a bundle whose document is nested at most as deeply as a bound says, and may have been
held back. -/
def Bundle.decode? (isHeld : Bool) : Nat → Json → Option Bundle
  | depth + 1, .object members => Bundle.ofMembers? (Value.decode? isHeld depth) members
  | _, _ => none

/-- Reads a typed value whose document is nested at most as deeply as a bound says, and may have
been held back. -/
def Value.decode? (isHeld : Bool) : Nat → Json → Option Value
  | 0, _ => none
  | depth + 1, json => do
      let tagged ← Json.Tagged.ofJson? "type" "value" Value.typeTags isHeld json
      if tagged.tag = "intent" then (Intent.decode? tagged.isHeld depth tagged.content).map .intent
      else if tagged.tag = "nested" then (Bundle.decode? tagged.isHeld depth tagged.content).map .bundle
      else Value.plainOfJson? tagged.tag tagged.content

end

def Intent.ofJson? (json : Json) : Option Intent := Intent.decode? false json.depth json

def Bundle.ofJson? (json : Json) : Option Bundle := Bundle.decode? false json.depth json

end IntentRouting
