import IntentRouting.Json.Number
import IntentRouting.Json.Record

/-!
# Identities and providers

An identity makes a request: it is a user, to whom grants belong, the process whose end ends what was
granted for its time, and a package. Two users are privileged, they have every access.

A provider serves the resources of one authority. Its package owns them, and it says whether access
to them can be granted to others.
-/

namespace IntentRouting

/-- The numbers that an id of a user or a process can have. -/
def idBounds : Integer.Bounds := .unsigned 32

def idOfJson? (json : Json) : Option Nat := (json.int? idBounds).map Int.toNat

/-- Who makes a request. -/
structure Identity where
  uid : Nat
  pid : Nat
  package : String
deriving DecidableEq, Repr

namespace Identity

def rootUid : Nat := 0

def systemUid : Nat := 1000

def system : Identity := ⟨systemUid, 0, "android"⟩

def isPrivileged (identity : Identity) : Bool :=
  identity.uid = rootUid || identity.uid = systemUid

def text (identity : Identity) : String :=
  s!"{identity.package} (uid {identity.uid}, pid {identity.pid})"

instance : ToString Identity := ⟨text⟩

def toJson (identity : Identity) : Json :=
  .object [("uid", .nat identity.uid), ("pid", .nat identity.pid),
    ("package", .string identity.package)]

def ofJson? (json : Json) : Option Identity := do
  match ← json.slots? ["uid", "pid", "package"] with
  | [uid, pid, package] =>
      some ⟨← uid.required idOfJson?, ← pid.required idOfJson?, ← package.required Json.string?⟩
  | _ => none

end Identity

/-- What is known about a provider. -/
structure ProviderInfo where
  authority : String
  package : String
  ownerUid : Nat
  className : Option String
  exported : Bool
  grantsUris : Bool
deriving DecidableEq, Repr

namespace ProviderInfo

/-- The document of what is known about a provider. -/
def toJson (info : ProviderInfo) : Json :=
  .object [("authority", .string info.authority), ("package", .string info.package),
    ("owner_uid", .nat info.ownerUid), ("class_name", .optionalString info.className),
    ("exported", .bool info.exported), ("grant_uri_permissions", .bool info.grantsUris)]

/-- Reads the document of what is known about a provider. -/
def ofJson? (json : Json) : Option ProviderInfo := do
  match ← json.slots? ["authority", "package", "owner_uid", "class_name", "exported",
      "grant_uri_permissions"] with
  | [authority, package, ownerUid, className, exported, grantsUris] =>
      some {
        authority := ← authority.required Json.string?
        package := ← package.required Json.string?
        ownerUid := ← ownerUid.required idOfJson?
        className := ← className.withDefault none (·.nullable? Json.string?)
        exported := ← exported.withDefault false Json.bool?
        grantsUris := ← grantsUris.withDefault false Json.bool? }
  | _ => none

end ProviderInfo

end IntentRouting
