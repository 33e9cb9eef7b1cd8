import IntentRouting.Event
import IntentRouting.NameMap
import IntentRouting.Permission.Store
import IntentRouting.Permission.Table

/-!
# The authority on access

The authority decides who may use which URI. The owner of a provider and privileged users may use
everything of it; others may use what they were granted. Who holds access may grant it on, if the
provider allows it, and who was granted persistable access may make it durable.

Every request is a function of the authority, so a history is a list of requests. The answer of a
request comes with the authority after it and the events that announce it. What is persisted is
saved whenever it changes. If saving fails when a grant is made durable or released, the durable
parts of all grants that were touched are put back; a revocation stays in force whether or not it
can be saved.
-/

namespace IntentRouting

/-- How an authority works. -/
structure PermissionSettings where
  shardCount : Nat
  /-- Whether grants for everything beneath a URI are respected. -/
  prefixGrants : Bool
  /-- How many grants a user can have made durable; one is always possible. -/
  maxPersisted : Nat
deriving DecidableEq, Repr

/-- Who may use which URI. -/
structure Authority where
  settings : PermissionSettings
  providers : NameMap ProviderInfo
  table : GrantTable
  store : GrantStore

namespace Authority

/-- An answer, the authority after it, and what is announced. -/
structure Outcome (α : Type) where
  answer : Except Error α
  authority : Authority
  events : List Event

/-- The answer of a request that is refused and changes nothing. -/
def refuse {α : Type} (authority : Authority) (error : Error) : Outcome α :=
  ⟨.error error, authority, []⟩

/-- The authority without providers and grants, over a store. -/
def new (place : Placement) (settings : PermissionSettings) (store : GrantStore) : Authority :=
  ⟨settings, .empty, .empty place settings.shardCount, store⟩

/-- The authority with the grants that a store keeps. -/
def load (place : Placement) (settings : PermissionSettings) (store : GrantStore) : Authority :=
  let authority := new place settings store
  { authority with
    table := store.records.foldl (fun table kept => table.put (.ofPersisted kept))
      authority.table }

/-- The authority whose grants are met in some order. -/
def rearranged (authority : Authority) (order : KeyOrder) : Authority :=
  { authority with table := authority.table.rearranged order }

def shardCount (authority : Authority) : Nat := authority.table.shards.length

/-- The greatest number of grants that a user can have made durable. -/
def limit (authority : Authority) : Nat := max authority.settings.maxPersisted 1

/-! ## Providers -/

/-- Makes a provider known, instead of the one that had its authority. -/
def register (authority : Authority) (info : ProviderInfo) : Authority :=
  { authority with providers := authority.providers.insert info.authority info }

def unregister (authority : Authority) (name : String) : Authority :=
  { authority with providers := authority.providers.erase name }

def provider? (authority : Authority) (name : String) : Option ProviderInfo :=
  authority.providers.get? name

/-! ## Checking -/

/-- Whether a user owns the provider of a URI. -/
def owns (authority : Authority) (uid : Nat) (uri : Uri) : Bool :=
  uri.isContent &&
    match uri.authority.bind authority.provider? with
    | some provider => provider.ownerUid = uid
    | none => false

/-- Whether a caller may use a URI without a grant. -/
def holdsOwnerAccess (authority : Authority) (caller : Identity) (uri : Uri) : Bool :=
  caller.isPrivileged || authority.owns caller.uid uri

/-- The modes that a user was granted on exactly a URI. -/
def exactModes (authority : Authority) (uid : Nat) (uri : Uri) : Modes :=
  match authority.table.find? ⟨uid, uri, false⟩ with
  | some grant => grant.effective
  | none => .empty

/-- The modes that a user was granted on a URI by grants for everything beneath some URI. -/
def prefixModes (authority : Authority) (uid : Nat) (uri : Uri) : Modes :=
  (authority.table.shard uri).foldl
    (fun held grant =>
      if grant.beneath && grant.grantee = uid && grant.covers uri then held ∪ grant.effective
      else held)
    .empty

/-- The modes that a user was granted on a URI. -/
def grantedModes (authority : Authority) (uid : Nat) (uri : Uri) : Modes :=
  authority.exactModes uid uri ∪
    if authority.settings.prefixGrants then authority.prefixModes uid uri else .empty

/-- Whether a caller may use a URI in some modes. -/
def check (authority : Authority) (caller : Identity) (uri : Uri) (modes : Modes) : Bool :=
  modes.isEmpty || authority.holdsOwnerAccess caller uri ||
    (uri.isContent && (authority.grantedModes caller.uid uri).contains modes)

/-! ## Granting -/

/-- Why a grantor cannot grant access to a URI, if there is a reason. -/
def grantFault? (authority : Authority) (grantor : Identity) (uri : Uri) (modes : Modes) :
    Option Error :=
  if modes.isEmpty then some (.conflict .grantWithoutMode)
  else if !uri.isContent then some (.malformed (.notGrantable uri.text))
  else
    let name := uri.authority.getD ""
    match authority.provider? name with
    | none => some (.notFound (.provider name))
    | some provider =>
        if !provider.grantsUris && !grantor.isPrivileged then
          some (.permissionDenied (.grantingForbidden provider.authority))
        else if !authority.check grantor uri modes then
          some (.permissionDenied (.notHeld grantor modes uri))
        else none

/-- The grant that a grantee has after access was granted as some flags ask for: the one that it had
before, or a new one, with more modes. -/
def widened (authority : Authority) (now : Timestamp) (grantor : Identity) (uri : Uri)
    (flags : GrantFlags) (grantee : Identity) : Grant :=
  let key : GrantKey := ⟨grantee.uid, uri, flags.isPrefix⟩
  let prior := (authority.table.find? key).getD (.ofKey key grantor.uid now)
  prior.widen grantor.uid grantee.pid flags.modes flags.isPersistable

/-- Grants access to a URI, as some flags ask for. -/
def grant (authority : Authority) (now : Timestamp) (grantor : Identity) (uri : Uri)
    (flags : GrantFlags) (grantee : Identity) : Outcome Grant :=
  match authority.grantFault? grantor uri flags.modes with
  | some error => authority.refuse error
  | none =>
      let grant := authority.widened now grantor uri flags grantee
      ⟨.ok grant, { authority with table := authority.table.put grant },
        [.granted uri grantee.uid flags.modes]⟩

/-- The flags that ask for some modes, on a URI or on everything beneath it. -/
def flagsFor (modes : Modes) (beneath : Bool) : GrantFlags :=
  if beneath then .ofModes modes ∪ GrantFlags.beneath else .ofModes modes

/-! ## Saving -/

/-- Saves what is persisted. -/
def save (authority : Authority) : Except Error Authority :=
  match authority.store.save (authority.table.persisted fun _ => true) with
  | .ok store => .ok { authority with store }
  | .error error => .error error

/-- An authority whose store holds what is persisted. -/
def saved (authority : Authority) : Authority :=
  { authority with
    store := { authority.store with records := authority.table.persisted fun _ => true } }

theorem save_eq (authority : Authority) : authority.save =
    if authority.store.failing then .error GrantStore.writeFault else .ok authority.saved := by
  by_cases failing : authority.store.failing = true <;> simp [save, GrantStore.save, saved, failing]

/-- Puts the durable part of a grant back. -/
def restore (table : GrantTable) (prior : Grant) : GrantTable :=
  match table.find? prior.key with
  | some grant => table.put (grant.restore prior)
  | none => table.put prior

/-- Saves what is persisted after some grants were changed, or puts their durable parts back. -/
def saveOrRestore (authority : Authority) (priors : List Grant) (event : Event) : Outcome Unit :=
  match authority.save with
  | .ok saved => ⟨.ok (), saved, [event]⟩
  | .error error =>
      ⟨.error error, { authority with table := priors.foldl restore authority.table }, []⟩

/-! ## Revoking -/

def isRevoked (uri : Uri) (modes : Modes) (grantee : Option Nat) (grant : Grant) : Bool :=
  grant.uri.isBeneath uri && grantee.all (· = grant.grantee) && grant.effective.intersects modes

/-- What a revocation leaves of a grant. -/
def afterRevoking (uri : Uri) (modes : Modes) (grantee : Option Nat) (grant : Grant) :
    Option Grant :=
  if isRevoked uri modes grantee grant then (grant.without modes).settled else some grant

theorem key_of_afterRevoking {uri : Uri} {modes : Modes} {grantee : Option Nat} (grant left : Grant)
    (kept : afterRevoking uri modes grantee grant = some left) : left.key = grant.key := by
  simp only [afterRevoking] at kept
  split at kept
  · simpa using Grant.key_of_settled kept
  · cases kept
    rfl

def revocable (authority : Authority) (uri : Uri) (modes : Modes) (grantee : Option Nat) :
    List Grant :=
  (authority.table.shard uri).filter (isRevoked uri modes grantee)

/-- Whether a revocation takes durable modes away. -/
def revokesDurable (authority : Authority) (uri : Uri) (modes : Modes) (grantee : Option Nat) :
    Bool :=
  (authority.revocable uri modes grantee).any fun grant => grant.persisted.intersects modes

/-- Takes modes from the grants on a URI and beneath it, of one user or of all, and counts the
grants. -/
def revoke (authority : Authority) (uri : Uri) (modes : Modes) (grantee : Option Nat) :
    Outcome Nat :=
  let touched := authority.revocable uri modes grantee
  let changed : Authority :=
    { authority with
      table := authority.table.revise uri (afterRevoking uri modes grantee) key_of_afterRevoking }
  let after :=
    if authority.revokesDurable uri modes grantee then changed.save.toOption.getD changed
      else changed
  ⟨.ok touched.length, after, if touched.isEmpty then [] else [.revoked uri grantee modes]⟩

/-! ## Persisting -/

/-- The grants of a user on a URI: the one for the URI alone, and the one for everything beneath it.
-/
def grantsOn (authority : Authority) (uid : Nat) (uri : Uri) : List Grant :=
  (authority.table.find? ⟨uid, uri, false⟩).toList ++
    (authority.table.find? ⟨uid, uri, true⟩).toList

/-- The keys of the oldest grants that a user has made durable, as far as they are too many. -/
def overLimit (authority : Authority) (uid : Nat) : List GrantKey :=
  let kept := authority.table.persisted fun grant => grant.grantee = uid
  (kept.take (kept.length - authority.limit)).map PersistedGrant.key

/-- Makes the grant of a key transient again. -/
def evict (table : GrantTable) (key : GrantKey) : GrantTable :=
  match table.find? key with
  | some grant => table.settle grant.evict
  | none => table

/-- Makes the grants of a user that are too many transient again, and returns them as they were. -/
def evictOverLimit (authority : Authority) (uid : Nat) : List Grant × Authority :=
  let victims := authority.overLimit uid
  (victims.filterMap authority.table.find?,
    { authority with table := victims.foldl evict authority.table })

/-- The grants of a user on a URI that promise some modes. -/
def promotable (authority : Authority) (uid : Nat) (uri : Uri) (modes : Modes) : List Grant :=
  (authority.grantsOn uid uri).filter fun grant => grant.persistable.contains modes

/-- Makes modes of some grants durable. -/
def promote (authority : Authority) (grants : List Grant) (modes : Modes) (now : Timestamp) :
    Authority :=
  { authority with
    table := grants.foldl (fun table grant => table.put (grant.promote modes now))
      authority.table }

/-- Makes access that was granted as persistable durable. -/
def take (authority : Authority) (now : Timestamp) (grantee : Identity) (uri : Uri)
    (modes : Modes) : Outcome Unit :=
  let promoted := authority.promotable grantee.uid uri modes
  if (authority.grantsOn grantee.uid uri).isEmpty then
    authority.refuse (.notFound (.grant uri grantee.uid))
  else if promoted.isEmpty then
    authority.refuse (.permissionDenied (.notPersistable modes uri grantee.uid))
  else
    let (evicted, changed) := (authority.promote promoted modes now).evictOverLimit grantee.uid
    changed.saveOrRestore (promoted ++ evicted) (.persisted uri grantee.uid modes)

/-- The grants of a user on a URI of which some modes are durable. -/
def releasable (authority : Authority) (uid : Nat) (uri : Uri) (modes : Modes) : List Grant :=
  (authority.grantsOn uid uri).filter fun grant => grant.persisted.intersects modes

def release (authority : Authority) (grantee : Identity) (uri : Uri) (modes : Modes) :
    Outcome Unit :=
  let released := authority.releasable grantee.uid uri modes
  if released.isEmpty then
    authority.refuse (.notFound (.persistedGrant modes uri grantee.uid))
  else
    let table := released.foldl (fun table grant => table.settle (grant.release modes))
      authority.table
    saveOrRestore { authority with table } released (.released uri grantee.uid modes)

/-! ## The end of a process -/

/-- What the end of a process leaves of a grant. -/
def afterExit (pid : Nat) (grant : Grant) : Option Grant :=
  if grant.session = some pid then grant.endSession.settled else some grant

theorem key_of_afterExit {pid : Nat} (grant left : Grant) (kept : afterExit pid grant = some left) :
    left.key = grant.key := by
  simp only [afterExit] at kept
  split at kept
  · simpa using Grant.key_of_settled kept
  · cases kept
    rfl

/-- Ends what was granted for the time of a process, and counts the grants that are gone. -/
def exit (authority : Authority) (pid : Nat) : Nat × Authority :=
  ((authority.table.grants.filter fun grant => (afterExit pid grant).isNone).length,
    { authority with table := authority.table.reviseAll (afterExit pid) key_of_afterExit })

/-! ## Looking at grants -/

/-- What a user has made durable, the oldest first. -/
def persistedBy (authority : Authority) (uid : Nat) : List PersistedGrant :=
  authority.table.persisted fun grant => grant.grantee = uid

/-- What others have made durable of what a user granted, the oldest first. -/
def persistedFrom (authority : Authority) (uid : Nat) : List PersistedGrant :=
  authority.table.persisted fun grant => grant.grantor = uid

def grantsOf (authority : Authority) (uid : Nat) : List Grant :=
  (authority.table.grants.filter fun grant => grant.grantee = uid).mergeSort Grant.precedes

end Authority

end IntentRouting
