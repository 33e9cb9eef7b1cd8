import IntentRouting.Configuration
import IntentRouting.Intent.Link.Reader
import IntentRouting.Intent.Link.Writer
import IntentRouting.Manifest.Reader
import IntentRouting.Resolver

/-!
# Commands

What the program does with its input, as functions from texts to a text: resolve an intent against
manifests, show how the text of an intent is read, normalize types, and list persisted grants. A
command that reads something says so in its error, with a context that names what was read.
-/

namespace IntentRouting.Command

/-- Why a command fails. -/
structure Failure where
  error : Error
  /-- What the command was about to read, if that is what failed. -/
  context : Option String

abbrev Result := Except Failure

def plain {α : Type} (result : Except Error α) : Result α := result.mapError (⟨·, none⟩)

def within {α : Type} (context : String) (result : Except Error α) : Result α :=
  result.mapError (⟨·, some context⟩)

/-- The text of lines, each of which ends in a line break. -/
def lines (texts : List String) : String := String.join (texts.map (· ++ "\n"))

def readIntent (text : String) : Result Intent :=
  within ("Cannot parse intent URI " ++ Text.quoted text)
    ((Intent.ofLink text LinkFlags.intentScheme).mapError .malformed)

/-! ## Resolving -/

/-- A file that is read: its path, and its text if the file is there. -/
structure TextFile where
  path : String
  text : Option String

def readManifest (source : TextFile) : Result Manifest :=
  within ("Failed to parse " ++ Text.quoted source.path)
    (match source.text with
    | none => .error (.file .missing)
    | some text => (Manifest.parse text).mapError .manifest)

/-- The registry after the handlers of manifests are installed, one after the other. -/
def installAll (registry : Registry) : List TextFile → Result Registry
  | [] => .ok registry
  | source :: sources =>
      match readManifest source with
      | .error failure => .error failure
      | .ok manifest =>
          match manifest.install registry with
          | .error error => .error ⟨error, none⟩
          | .ok (registry, _) => installAll registry sources

def candidateLine (candidate : Candidate) : String :=
  candidate.component.short ++ "\t" ++ candidate.kind.name ++ "\tpriority=" ++
    Integer.text candidate.priority.toInt ++ "\tmatch=" ++ candidate.quality.title

/-- What is to be resolved. -/
structure Resolve where
  manifests : List TextFile
  link : String
  mimeType : Option String
  /-- Whether all handlers are listed, and not only the one that is meant. -/
  all : Bool
  defaultOnly : Bool

def resolve (request : Resolve) : Result String := do
  let registry ← installAll .empty request.manifests
  let intent ← readIntent request.link
  let intent :=
    match request.mimeType with
    | none => intent
    | some mimeType => intent.setDataAndType intent.data (some mimeType)
  let types : Resolver.Types := fun _ => none
  if request.all then
    let candidates ← plain (Resolver.query types registry intent request.defaultOnly none)
    return if candidates.isEmpty then lines ["no matching handlers"]
      else lines (candidates.map candidateLine)
  else
    let winner ← plain (Resolver.resolve types .empty registry intent request.defaultOnly)
    return lines [winner.component.short]

/-! ## The other commands -/

/-- Shows how the text of an intent is read: as a document, and written again. -/
def inspect (link : String) : Result String := do
  let intent ← readIntent link
  let text ← plain ((intent.toLink LinkFlags.intentScheme).mapError .conflict)
  return lines [intent.toJson.indented, text]

/-- A type in its normal form, or what is wrong with it. -/
def mimeLine (type : String) : String :=
  match Mime.validate (Mime.normalize type) with
  | .ok () => Mime.normalize type
  | .error cause => type ++ "\tinvalid: " ++ (Error.malformed cause).message

def normalizeTypes (types : List String) : String := lines (types.map mimeLine)

def grantLine (kept : PersistedGrant) : String :=
  kept.uri.text ++ (if kept.beneath then " (prefix)" else "") ++
    s!"\tuid={kept.grantee}\tfrom={kept.grantor}\t{kept.modes.describe}\t{kept.persistedAt.offsetText}"

/-- Lists the persisted grants of a store, of one user or of all. -/
def listGrants (store : TextFile) (uid : Option Nat) : Result String := do
  let records ← within ("Failed to read grant store " ++ Text.quoted store.path)
    (GrantDocument.load store.text)
  let listed := records.filter fun kept => uid.all (· = kept.grantee)
  return if listed.isEmpty then lines ["no persisted grants"] else lines (listed.map grantLine)

end IntentRouting.Command
