import IntentRouting.Error
import IntentRouting.Intent.Document
import IntentRouting.Json.Reader
import IntentRouting.Json.Writer
import IntentRouting.Permission.Grant
import IntentRouting.Permission.Identity

/-!
# The store of persisted grants

Where persisted grants outlive the process that made them. Saving replaces everything that was
saved, or fails and changes nothing. A store on disk is one document, whose text is defined here.
-/

namespace IntentRouting

/-- The records that were saved last, and whether saving succeeds at present. -/
structure GrantStore where
  records : List PersistedGrant
  failing : Bool
deriving DecidableEq

namespace GrantStore

def empty : GrantStore := ⟨[], false⟩

/-- The error of a store that cannot be written. -/
def writeFault : Error := .file (.other "disk full")

def find? (store : GrantStore) (key : GrantKey) : Option PersistedGrant :=
  (store.records.filter fun kept => key = kept.key).getLast?

/-- Saves records. -/
def save (store : GrantStore) (records : List PersistedGrant) : Except Error GrantStore :=
  if store.failing then .error writeFault else .ok { store with records }

end GrantStore

namespace PersistedGrant

def toJson (kept : PersistedGrant) : Json :=
  .object [("uri", kept.uri.toJson), ("prefix", .bool kept.beneath),
    ("grantee_uid", .nat kept.grantee), ("grantor_uid", .nat kept.grantor),
    ("mode", kept.modes.toJson), ("persisted_at", .string kept.persistedAt.text)]

def momentOfJson? (json : Json) : Option Timestamp := json.string?.bind Timestamp.parse?

def ofJson? (json : Json) : Option PersistedGrant := do
  match ← json.slots? ["uri", "prefix", "grantee_uid", "grantor_uid", "mode", "persisted_at"] with
  | [uri, beneath, grantee, grantor, modes, persistedAt] =>
      some {
        uri := ← uri.required Uri.ofJson?
        beneath := ← beneath.withDefault false Json.bool?
        grantee := ← grantee.required idOfJson?
        grantor := ← grantor.required idOfJson?
        modes := ← modes.required FlagSet.ofJson?
        persistedAt := ← persistedAt.required momentOfJson? }
  | _ => none

end PersistedGrant

/-- All records of a store as one document. -/
structure GrantDocument where
  version : Nat
  records : List PersistedGrant

namespace GrantDocument

def currentVersion : Nat := 1

def ofRecords (records : List PersistedGrant) : GrantDocument := ⟨currentVersion, records⟩

def toJson (document : GrantDocument) : Json :=
  .object [("version", .nat document.version),
    ("grants", .list PersistedGrant.toJson document.records)]

def ofJson? (json : Json) : Option GrantDocument := do
  match ← json.slots? ["version", "grants"] with
  | [version, records] =>
      some ⟨← version.required idOfJson?, ← records.required (·.list? PersistedGrant.ofJson?)⟩
  | _ => none

def text (document : GrantDocument) : String := document.toJson.indented

def parse (text : String) : Except Error (List PersistedGrant) :=
  match (Json.read? text).bind ofJson? with
  | some document => .ok document.records
  | none => .error .document

/-- Reads the records of a file, which may not be there yet. -/
def load : Option String → Except Error (List PersistedGrant)
  | none => .ok []
  | some text => parse text

end GrantDocument

end IntentRouting
