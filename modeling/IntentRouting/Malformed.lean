import IntentRouting.Number.Integer
import IntentRouting.Text.Visible
import IntentRouting.Text.Utf8

/-!
# Malformed descriptors

Everything that can be wrong with a text or a value that describes a resource, a component, an
intent or a filter. A cause holds what a reader of the message needs to find the fault; the wording
is in one place.
-/

namespace IntentRouting

/-- Why a descriptor is malformed. -/
inductive Malformed where
  | emptyUri
  | blankInUri (text : String)
  | scheme (text : String)
  | escape (text : String) (fault : Text.Utf8.Fault)
  | mimeType (text : String)
  | componentWithoutClass (text : String)
  | incompleteComponent (text : String)
  /-- The fault is that of the first number that cannot be read, if there is one. -/
  | bounds (text : String) (fault : Option IntegerFault)
  | emptyLink
  | linkWithoutPackage (text : String)
  | fragmentEntry (entry : String)
  | fragmentKey (key : String)
  | unterminatedFragment
  | textAfterFragment
  | launchFlags (text : String)
  | extraValue (tag : Char) (text : String)
  | extraTag (tag : Char)
  | dataWithoutSchemeAndType
  | dataHostWithoutScheme
  | dataPortWithoutHost
  | dataPort (text : String)
  | danglingEscape
  | fileMode (text : String)
  | notContent (uri : String)
  | notGrantable (uri : String)
  | withoutAuthority (uri : String)
  | other (text : String)
deriving DecidableEq, Repr

namespace Malformed

def message : Malformed → String
  | emptyUri => "empty URI"
  | blankInUri text => "URI contains whitespace or control characters: " ++ Text.quoted text
  | scheme text => "invalid scheme in URI " ++ Text.quoted text
  | escape text fault => "invalid escape in " ++ Text.quoted text ++ ": " ++ fault.message
  | mimeType text => "malformed MIME type " ++ Text.quoted text
  | componentWithoutClass text => "component " ++ Text.quoted text ++ " is missing '/'"
  | incompleteComponent text => "incomplete component " ++ Text.quoted text
  | bounds text none => "bad bounds " ++ Text.quoted text
  | bounds text (some fault) => "bad bounds " ++ Text.quoted text ++ ": " ++ fault.message
  | emptyLink => "empty intent URI"
  | linkWithoutPackage text => "android-app URI " ++ Text.quoted text ++ " has no package"
  | fragmentEntry entry => "fragment entry " ++ Text.quoted entry ++ " has no value"
  | fragmentKey key => "unknown fragment key " ++ Text.quoted key
  | unterminatedFragment => "fragment is missing its end marker"
  | textAfterFragment => "trailing data after fragment end"
  | launchFlags text => "invalid launchFlags " ++ Text.quoted text
  | extraValue tag text => "invalid " ++ String.singleton tag ++ " extra value " ++ Text.quoted text
  | extraTag tag => "unknown extra type " ++ Text.quotedCharacter tag
  | dataWithoutSchemeAndType => "data entry declares neither scheme nor MIME type"
  | dataHostWithoutScheme => "data entry declares host or path without a scheme"
  | dataPortWithoutHost => "data entry declares port without host"
  | dataPort text => "invalid port " ++ Text.quoted text
  | danglingEscape => "path pattern ends in a dangling escape"
  | fileMode text => "bad file mode " ++ Text.quoted text
  | notContent uri => "not a content URI: " ++ uri
  | notGrantable uri => "can only grant access to content URIs, not " ++ uri
  | withoutAuthority uri => uri ++ " has no authority"
  | other text => text

end Malformed

end IntentRouting
