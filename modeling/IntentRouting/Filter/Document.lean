import IntentRouting.Filter.Basic
import IntentRouting.Json.Number
import IntentRouting.Json.Record

/-!
# Filters as documents

The JSON form of a filter and of its rules. All fields of a filter have defaults.
-/

namespace IntentRouting

namespace DataRule

def toJson (rule : DataRule) : Json :=
  .object [("scheme", .optionalString rule.scheme), ("host", .optionalString rule.host),
    ("port", .optionalString rule.port), ("path", .optionalString rule.path),
    ("path_prefix", .optionalString rule.pathBeginning),
    ("path_suffix", .optionalString rule.pathEnding),
    ("path_pattern", .optionalString rule.pathGlob), ("mime_type", .optionalString rule.mimeType)]

def ofJson? (json : Json) : Option DataRule := do
  let slots ← json.slots? ["scheme", "host", "port", "path", "path_prefix", "path_suffix",
    "path_pattern", "mime_type"]
  match ← slots.mapM (·.optional Json.string?) with
  | [scheme, host, port, path, pathBeginning, pathEnding, pathGlob, mimeType] =>
      some ⟨scheme, host, port, path, pathBeginning, pathEnding, pathGlob, mimeType⟩
  | _ => none

end DataRule

namespace Filter

def priorityBounds : Integer.Bounds := .signed 32

def toJson (filter : Filter) : Json :=
  .object [("actions", .strings filter.actions), ("categories", .strings filter.categories),
    ("data", .list DataRule.toJson filter.rules), ("priority", .int filter.priority.toInt),
    ("auto_verify", .bool filter.autoVerify)]

def ofJson? (json : Json) : Option Filter := do
  match ← json.slots? ["actions", "categories", "data", "priority", "auto_verify"] with
  | [actions, categories, rules, priority, autoVerify] =>
      some {
        actions := ← actions.withDefault [] (·.list? Json.string?)
        categories := ← categories.withDefault [] (·.list? Json.string?)
        rules := ← rules.withDefault [] (·.list? DataRule.ofJson?)
        priority := ← priority.withDefault 0 fun value =>
          (value.int? priorityBounds).map Int32.ofInt
        autoVerify := ← autoVerify.withDefault false Json.bool? }
  | _ => none

end Filter

namespace Pattern

def Kind.name : Kind → String
  | .literal => "literal"
  | .beginning => "prefix"
  | .ending => "suffix"
  | .glob => "simple_glob"

def Kind.ofName? (name : String) : Option Kind :=
  if name = "literal" then some .literal
  else if name = "prefix" then some .beginning
  else if name = "suffix" then some .ending
  else if name = "simple_glob" then some .glob
  else none

def toJson (pattern : Pattern) : Json :=
  .object [("pattern", .string pattern.text), ("kind", .string pattern.kind.name)]

def ofJson? (json : Json) : Option Pattern := do
  match ← json.slots? ["pattern", "kind"] with
  | [text, kind] =>
      some ⟨← text.required Json.string?,
        ← kind.required fun value => value.alternative?.bind Kind.ofName?⟩
  | _ => none

end Pattern

end IntentRouting
