import IntentRouting.Component
import IntentRouting.Permission.Identity
import IntentRouting.Permission.Mode
import IntentRouting.Uri.Basic

/-!
# Errors

Why a request fails. Each kind of error has causes of its own, with the data that they are about, so
that a statement can name the cause and not its wording; a cause with a text of its own is there for
what providers report. The wording of all errors is in `Error.message`, and a friendlier one for
users in `Error.userMessage`.
-/

namespace IntentRouting

/-- What a request is in conflict with that is well formed. -/
inductive Conflict where
  | packageBesideSelector
  | selectorBesidePackage
  | linkWithoutPackage
  | strayHandler (component : Component) (package : String)
  | grantWithoutMode
  | authorityTaken (authority : String)
  | other (text : String)
deriving DecidableEq, Repr

def Conflict.message : Conflict → String
  | packageBesideSelector => "can't set package name when selector is already set"
  | selectorBesidePackage => "can't set selector when package name is already set"
  | linkWithoutPackage => "android-app: form requires a package"
  | strayHandler component package =>
      "handler " ++ component.short ++ " does not belong to package " ++ package
  | grantWithoutMode => "grant requires read or write mode"
  | authorityTaken authority => "authority " ++ authority ++ " is already installed"
  | other text => text

/-- Why access is denied. -/
inductive Denial where
  | grantingForbidden (authority : String)
  | notHeld (grantor : Identity) (modes : Modes) (uri : Uri)
  | notPersistable (modes : Modes) (uri : Uri) (uid : Nat)
  | accessRequired (caller : Identity) (modes : Modes) (uri : Uri)
  | other (text : String)
deriving DecidableEq

def Denial.message : Denial → String
  | grantingForbidden authority =>
      s!"provider {authority} does not allow granting of URI permissions"
  | notHeld grantor modes uri => s!"{grantor} does not hold {modes.describe} access to {uri}"
  | notPersistable modes uri uid =>
      s!"no persistable {modes.describe} grant on {uri} for uid {uid}"
  | accessRequired caller modes uri => s!"{caller} requires {modes.describe} access to {uri}"
  | other text => text

/-- What was not found. -/
inductive Missing where
  | provider (authority : String)
  | grant (uri : Uri) (uid : Nat)
  | persistedGrant (modes : Modes) (uri : Uri) (uid : Nat)
  | component (name : Component)
  | typedAsset (uri : Uri) (mimeType : String)
  | other (text : String)
deriving DecidableEq

def Missing.message : Missing → String
  | .provider authority => "no provider for authority " ++ Text.quoted authority
  | .grant uri uid => s!"no grant on {uri} for uid {uid}"
  | .persistedGrant modes uri uid =>
      s!"no persisted {modes.describe} grant on {uri} for uid {uid}"
  | .component name => s!"component {name}"
  | .typedAsset uri mimeType => s!"can't open {uri} as type {mimeType}"
  | .other text => text

/-- Why a file cannot be read or written. -/
inductive FileFault where
  | missing
  | other (text : String)
deriving DecidableEq

def FileFault.message : FileFault → String
  | missing => "No such file or directory (os error 2)"
  | other text => text

/-- Why a text is not a manifest. -/
inductive ManifestFault where
  /-- The text is not well-formed markup. -/
  | markup
  | applicationOutsideManifest
  | noManifest
  | other (text : String)
deriving DecidableEq

def ManifestFault.message : ManifestFault → String
  | markup => "XML parsing error: the markup is not well-formed"
  | applicationOutsideManifest => "Invalid manifest structure: <application> outside <manifest>"
  | noManifest => "Invalid manifest structure: missing <manifest> root element"
  | other text => text

/-- Why a request fails. -/
inductive Error where
  | noMatchingHandler (description : String)
  | ambiguousMatch (candidates : List String)
  | permissionDenied (cause : Denial)
  | malformed (cause : Malformed)
  | cancelled
  | notFound (cause : Missing)
  | conflict (cause : Conflict)
  | unsupported (text : String)
  | provider (text : String)
  | file (fault : FileFault)
  | configuration (text : String)
  | configurationSyntax
  | document
  | manifest (fault : ManifestFault)
deriving DecidableEq

namespace Error

/-- The name of the kind of an error, for programs that act on it. -/
def kind : Error → String
  | noMatchingHandler _ => "NoMatchingHandler"
  | ambiguousMatch _ => "AmbiguousMatch"
  | permissionDenied _ => "PermissionDenied"
  | malformed _ => "MalformedDescriptor"
  | cancelled => "CancellationRequested"
  | notFound _ => "NotFound"
  | conflict _ => "InvalidState"
  | unsupported _ => "Unsupported"
  | provider _ => "Provider"
  | file _ => "Io"
  | configuration _ => "Config"
  | configurationSyntax => "TomlParse"
  | document => "Json"
  | manifest _ => "XmlParse"

def message : Error → String
  | noMatchingHandler description => "No handler matches the intent: " ++ description
  | ambiguousMatch candidates => s!"Ambiguous match between {candidates.length} handlers"
  | permissionDenied cause => "Permission denied: " ++ cause.message
  | malformed cause => "Malformed descriptor: " ++ cause.message
  | cancelled => "Cancellation requested"
  | notFound cause => "Not found: " ++ cause.message
  | conflict cause => "Invalid state: " ++ cause.message
  | unsupported text => "Unsupported operation: " ++ text
  | provider text => "Provider error: " ++ text
  | file fault => "IO error: " ++ fault.message
  | configuration text => "Configuration error: " ++ text
  | configurationSyntax => "TOML parse error: the configuration cannot be read"
  | document => "JSON error: the document cannot be read"
  | manifest fault => "XML parse error: " ++ fault.message

def userMessage : Error → String
  | noMatchingHandler description => "No app can handle this action: " ++ description
  | ambiguousMatch candidates => s!"Choose an app to continue ({candidates.length} available)"
  | permissionDenied cause => "Permission denied: " ++ cause.message
  | malformed cause => "Invalid request: " ++ cause.message
  | cancelled => "Operation was cancelled"
  | file fault => "File operation failed: " ++ fault.message
  | error => error.message

/-- Whether the caller can go on after an error. -/
def isRecoverable : Error → Bool
  | noMatchingHandler _ | ambiguousMatch _ | permissionDenied _ | malformed _ | cancelled
  | notFound _ => true
  | _ => false

/-- Whether an error says that the caller gave the request up. -/
def isCancellation : Error → Bool
  | cancelled => true
  | _ => false

end Error

instance : MonadLift (Except Malformed) (Except Error) := ⟨fun result => result.mapError .malformed⟩

instance : MonadLift (Except Conflict) (Except Error) := ⟨fun result => result.mapError .conflict⟩

end IntentRouting
