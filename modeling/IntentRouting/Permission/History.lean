import IntentRouting.Permission.Dispatch

/-!
# Histories

A history of an authority is a list of requests, and what an authority is after a history is
computed by performing one request after the other. Besides what can be asked of an authority, a
history holds what can happen to it: its store becomes impossible to write, or possible again, it is
made anew from what its store keeps, and its grants come to be met in another order. Access that was
granted in a history is found in it again as a delegation, whether a grant was asked for or an intent
was delivered.
-/

namespace IntentRouting

/-- What can be asked of an authority, and what can happen to it. -/
inductive Request where
  | register (info : ProviderInfo)
  | unregister (name : String)
  | grant (now : Timestamp) (grantor : Identity) (uri : Uri) (flags : GrantFlags)
      (grantee : Identity)
  | dispatch (now : Timestamp) (caller : Identity) (intent : Intent) (receiver : Identity)
  | revoke (uri : Uri) (modes : Modes) (grantee : Option Nat)
  | take (now : Timestamp) (grantee : Identity) (uri : Uri) (modes : Modes)
  | release (grantee : Identity) (uri : Uri) (modes : Modes)
  | exit (pid : Nat)
  /-- From now on the store cannot be written, or it can. -/
  | storeFails (failing : Bool)
  | reload
  /-- From now on grants are met in some order. -/
  | rearrange (order : KeyOrder)

/-- Access that was granted: by whom, to what, in which way and to whom. -/
structure Delegation where
  grantor : Identity
  uri : Uri
  flags : GrantFlags
  grantee : Identity

namespace Delegation

/-- The key of the grant that the grantee has. -/
def key (delegation : Delegation) : GrantKey :=
  ⟨delegation.grantee.uid, delegation.uri, delegation.flags.isPrefix⟩

/-- The delegations that some events announce. -/
def ofEvents (grantor : Identity) (flags : GrantFlags) (grantee : Identity) (events : List Event) :
    List Delegation :=
  events.filterMap fun
    | .granted uri _ _ => some ⟨grantor, uri, flags, grantee⟩
    | _ => none

end Delegation

namespace Authority

/-- An outcome without its answer. -/
def Outcome.withoutAnswer {α : Type} (outcome : Outcome α) : Outcome Unit :=
  ⟨outcome.answer.map fun _ => (), outcome.authority, outcome.events⟩

/-- The outcome of what is never refused and never announced. -/
def done (authority : Authority) : Outcome Unit := ⟨.ok (), authority, []⟩

/-- The authority that is made again from its store. Providers have to be made known to it anew. -/
def reload (authority : Authority) : Authority :=
  load authority.table.place authority.settings authority.store

/-- The outcome of a request. -/
def perform (authority : Authority) : Request → Outcome Unit
  | .register info => done (authority.register info)
  | .unregister name => done (authority.unregister name)
  | .grant now grantor uri flags grantee =>
      (authority.grant now grantor uri flags grantee).withoutAnswer
  | .dispatch now caller intent receiver =>
      (authority.dispatch now caller intent receiver).withoutAnswer
  | .revoke uri modes grantee => (authority.revoke uri modes grantee).withoutAnswer
  | .take now grantee uri modes => authority.take now grantee uri modes
  | .release grantee uri modes => authority.release grantee uri modes
  | .exit pid => done (authority.exit pid).2
  | .storeFails failing => done { authority with store := { authority.store with failing } }
  | .reload => done authority.reload
  | .rearrange order => done (authority.rearranged order)

def run (authority : Authority) (requests : List Request) : Authority :=
  requests.foldl (fun authority request => (authority.perform request).authority) authority

theorem run_append (authority : Authority) (earlier later : List Request) :
    authority.run (earlier ++ later) = (authority.run earlier).run later :=
  List.foldl_append

@[simp]
theorem run_concat (authority : Authority) (requests : List Request) (request : Request) :
    authority.run (requests ++ [request]) = ((authority.run requests).perform request).authority :=
  run_append authority requests [request]

/-- Whether a request writes the store. -/
def saves (authority : Authority) : Request → Bool
  | .revoke uri modes grantee => authority.revokesDurable uri modes grantee
  | .take _ grantee uri modes => !(authority.promotable grantee.uid uri modes).isEmpty
  | .release grantee uri modes => !(authority.releasable grantee.uid uri modes).isEmpty
  | _ => false

/-- The store can be written whenever a request of a history writes it. -/
def SavesSucceed (authority : Authority) : List Request → Prop
  | [] => True
  | request :: requests =>
      (authority.saves request = true → authority.store.failing = false) ∧
        (authority.perform request).authority.SavesSucceed requests

instance decidableSavesSucceed :
    (authority : Authority) → (requests : List Request) →
      Decidable (authority.SavesSucceed requests)
  | _, [] => inferInstanceAs (Decidable True)
  | authority, request :: requests =>
      have := decidableSavesSucceed (authority.perform request).authority requests
      inferInstanceAs (Decidable (_ ∧ _))

def delegations (authority : Authority) (request : Request) : List Delegation :=
  match request with
  | .grant _ grantor _ flags grantee =>
      Delegation.ofEvents grantor flags grantee (authority.perform request).events
  | .dispatch _ caller intent receiver =>
      Delegation.ofEvents caller (.ofIntentFlags intent.flags) receiver
        (authority.perform request).events
  | _ => []

/-- What was granted in a history, each delegation with the authority that was asked. -/
def delegated (authority : Authority) : List Request → List (Authority × Delegation)
  | [] => []
  | request :: requests =>
      (authority.delegations request).map (authority, ·) ++
        (authority.perform request).authority.delegated requests

theorem delegated_append (authority : Authority) (earlier later : List Request) :
    authority.delegated (earlier ++ later) =
      authority.delegated earlier ++ (authority.run earlier).delegated later := by
  induction earlier generalizing authority with
  | nil => rfl
  | cons request earlier ih =>
      rw [List.cons_append, delegated, delegated, ih, List.append_assoc]
      rfl

theorem mem_delegated_append {authority : Authority} {earlier : List Request}
    {step : Authority × Delegation} (granted : step ∈ authority.delegated earlier)
    (later : List Request) :
    step ∈ authority.delegated (earlier ++ later) := by
  rw [delegated_append]
  exact List.mem_append_left _ granted

theorem mem_delegated_concat {authority : Authority} {requests : List Request} {request : Request}
    {delegation : Delegation}
    (granted : delegation ∈ (authority.run requests).delegations request) :
    (authority.run requests, delegation) ∈ authority.delegated (requests ++ [request]) := by
  rw [delegated_append, delegated]
  exact List.mem_append_right _ (List.mem_append_left _ (List.mem_map_of_mem granted))

end Authority

/-! ## A provider of notes

A note, its owner and a viewer with whom it is shared. -/

namespace Notes

def owner : Identity := ⟨10001, 100, "com.notes"⟩

def viewer : Identity := ⟨10002, 200, "com.viewer"⟩

def note : Uri := ⟨some Uri.contentScheme, .hierarchical (some "notes") "/1" none, none⟩

/-- What lies beneath the note. -/
def draft : Uri := ⟨some Uri.contentScheme, .hierarchical (some "notes") "/1/draft" none, none⟩

def provider : ProviderInfo := ⟨"notes", "com.notes", 10001, none, true, true⟩

def moment (second : Int) : Timestamp := ⟨second, 0⟩

/-- The authority before anything was shared. Users can make some number of grants durable. -/
def start (maxPersisted : Nat) : Authority :=
  .new (fun _ _ => 0) ⟨1, true, maxPersisted⟩ .empty

def sharing (flags : GrantFlags) : Request := .grant (moment 1) owner note flags viewer

/-- Reading, to be kept. -/
def readToKeep : GrantFlags := GrantFlags.ofModes Modes.read ∪ GrantFlags.persistable

/-- The note is shared with the viewer, who grants it to itself to be kept and makes the access
durable. -/
def keeping : List Request :=
  [.register provider, sharing (GrantFlags.ofModes Modes.read),
    .grant (moment 2) viewer note readToKeep viewer,
    .take (moment 3) viewer note Modes.read]

/-- What the viewer has made durable. -/
def kept : Grant :=
  { uri := note, beneath := false, grantee := viewer.uid, grantor := viewer.uid,
    session := some viewer.pid, transient := Modes.read, persistable := Modes.read,
    persisted := Modes.read, grantedAt := moment 1, persistedAt := some (moment 3) }

end Notes

end IntentRouting
