import IntentRouting.Intent.Bundle

/-!
# Equal values

Two intents are the same if all their fields are. Bundles are compared without regard to the order
of their names, and floating-point numbers as numbers: not-a-number is not the same as itself.
-/

namespace IntentRouting

mutual

def Intent.same : Intent → Intent → Bool
  | ⟨action, data, mimeType, identifier, categories, package, component, selector, flags, extras, clip,
      bounds⟩, other =>
    action = other.action && data = other.data && mimeType = other.mimeType &&
      identifier = other.identifier && categories = other.categories && package = other.package &&
      component = other.component && flags = other.flags && bounds = other.bounds &&
      Intent.sameOptional selector other.selector && extras.same other.extras &&
      Clip.sameOptional clip other.clip

/-- Whether two optional intents are the same. -/
def Intent.sameOptional : Option Intent → Option Intent → Bool
  | none, none => true
  | some left, some right => left.same right
  | _, _ => false

/-- Whether two bundles have the same values under the same names. -/
def Bundle.same : Bundle → Bundle → Bool
  | ⟨entries⟩, other => entries.length = other.entries.length && Bundle.sameEntries entries other

/-- Whether a bundle has the same values under the names of some entries. -/
def Bundle.sameEntries : List (String × Value) → Bundle → Bool
  | [], _ => true
  | (key, value) :: entries, other =>
      (match other.get? key with
        | some value' => value.same value'
        | none => false) && Bundle.sameEntries entries other

/-- Whether two values have the same type and content. -/
def Value.same : Value → Value → Bool
  | .bool left, .bool right => left = right
  | .byte left, .byte right => left = right
  | .short left, .short right => left = right
  | .char left, .char right => left = right
  | .int left, .int right => left = right
  | .long left, .long right => left = right
  | .float left, .float right => left.sameValue right
  | .double left, .double right => left.sameValue right
  | .string left, .string right => left = right
  | .blob left, .blob right => left = right
  | .strings left, .strings right => left = right
  | .uri left, .uri right => left = right
  | .intent left, .intent right => left.same right
  | .bundle left, .bundle right => left.same right
  | _, _ => false

def Clip.sameOptional : Option Clip → Option Clip → Bool
  | none, none => true
  | some left, some right => left.same right
  | _, _ => false

def Clip.same : Clip → Clip → Bool
  | ⟨label, mimeTypes, items⟩, other =>
      label = other.label && mimeTypes = other.mimeTypes && Clip.sameItems items other.items

def Clip.sameItems : List ClipItem → List ClipItem → Bool
  | [], [] => true
  | left :: lefts, right :: rights => left.same right && Clip.sameItems lefts rights
  | _, _ => false

def ClipItem.same : ClipItem → ClipItem → Bool
  | ⟨text, uri, intent⟩, other =>
      text = other.text && uri = other.uri && Intent.sameOptional intent other.intent

end

end IntentRouting
