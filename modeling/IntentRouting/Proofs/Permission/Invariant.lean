import IntentRouting.Proofs.Permission.Revision

/-!
# Properties of all grants

An invariant of authorities is often a property of each grant of the table, `Authority.Held`. It is
kept by every request that grants nothing and makes nothing durable if it is kept by the changes
that take something away from a grant: losing modes, being released, being evicted, losing its
process, and being made again from a record. `Grant.Hereditary` lists them, and
`Authority.Held.perform` lifts them to requests, whether or not the store can be written.

What a request grants or makes durable is left to the property. It has to hold of the grants that
come from the delegations of the request, under the assumption that it holds of all others, and of
the grants that the request made durable and did not put back.

Reloading makes the table again from the store, which may be older than the table.
`Authority.records_perform` says what the store has after a request. `Authority.Everywhere` asks the
property of the records as well, and so it is kept by all requests if being made durable keeps it,
too (`Grant.Stable`).
-/

namespace IntentRouting

/-- A property that every change keeps which takes something away from a grant, as long as something
is left of the grant. -/
structure Grant.Hereditary (property : Grant → Prop) : Prop where
  without : ∀ grant modes, property grant → (grant.without modes).isEmpty = false →
    property (grant.without modes)
  release : ∀ grant modes, property grant → (grant.release modes).isEmpty = false →
    property (grant.release modes)
  evict : ∀ grant, property grant → grant.evict.isEmpty = false → property grant.evict
  endSession : ∀ grant, property grant → grant.endSession.isEmpty = false →
    property grant.endSession
  reload : ∀ grant kept, property grant → grant.toPersisted? = some kept →
    property (.ofPersisted kept)

/-- A property that every change of a grant keeps, as long as something is left of the grant. -/
structure Grant.Stable (property : Grant → Prop) : Prop extends Hereditary property where
  promote : ∀ grant modes now, property grant → grant.persistable.contains modes = true →
    property (grant.promote modes now)

namespace Authority

/-- All grants of the table have a property. -/
def Held (property : Grant → Prop) (authority : Authority) : Prop :=
  ∀ grant ∈ authority.table.grants, property grant

/-- All grants have a property, and so have those of which the store has a record. -/
structure Everywhere (property : Grant → Prop) (authority : Authority) : Prop where
  held : ∀ grant ∈ authority.table.grants, property grant
  stored : ∀ kept ∈ authority.store.records, property (.ofPersisted kept)

variable {property : Grant → Prop} {authority : Authority} {now : Timestamp}
  {grantor grantee : Identity} {uri : Uri} {flags : GrantFlags} {uris : List Uri}

theorem Held.mono {weaker : Grant → Prop} (held : authority.Held property)
    (implies : ∀ grant, property grant → weaker grant) : authority.Held weaker := by
  intro grant member
  exact implies grant (held grant member)

theorem Everywhere.mono {weaker : Grant → Prop} (holds : authority.Everywhere property)
    (implies : ∀ grant, property grant → weaker grant) : authority.Everywhere weaker :=
  ⟨fun grant member => implies grant (holds.held grant member),
    fun kept member => implies _ (holds.stored kept member)⟩

theorem everywhere_new (property : Grant → Prop) (place : Placement)
    (settings : PermissionSettings) :
    (new place settings .empty).Everywhere property := by
  refine ⟨?_, fun kept member => absurd member List.not_mem_nil⟩
  intro grant member
  have found := GrantTable.mem_grants_iff.1 member
  simp [new] at found

theorem Held.of_revises {table : GrantTable} {change : Grant → Option Grant}
    (held : authority.Held property) (revises : table.Revises authority.table change)
    (keeps : ∀ grant ∈ authority.table.grants, ∀ left, property grant → change grant = some left →
      property left) :
    Held property { authority with table } := by
  intro left member
  rcases revises.mem_grants member with ⟨grant, member, changed⟩
  exact keeps grant member left (held grant member) changed

theorem Held.granted (held : authority.Held property)
    (widened : property (authority.widened now grantor uri flags grantee)) :
    (authority.granted now grantor uri flags grantee).Held property := by
  intro grant member
  rw [GrantTable.mem_grants_iff, Authority.granted, GrantTable.find?_put] at member
  split at member
  · cases member
    exact widened
  · exact held grant (GrantTable.mem_grants_iff.2 member)

/-! ## Each kind of change -/

section Hereditary

variable {uid : Nat} {modes : Modes} {grant left : Grant}

/-- All changes of grants settle what they change. -/
theorem property_of_settled {condition : Prop} [Decidable condition] {changed : Grant}
    (holds : property grant) (keeps : condition → changed.isEmpty = false → property changed)
    (settled : (if condition then changed.settled else some grant) = some left) :
    property left := by
  split at settled
  · rename_i met
    rcases Grant.settled_eq_some_iff.1 settled with ⟨nonempty, rfl⟩
    exact keeps met nonempty
  · cases settled
    exact holds

theorem property_afterRevoking (hereditary : Grant.Hereditary property) {user : Option Nat}
    (holds : property grant) (changed : afterRevoking uri modes user grant = some left) :
    property left :=
  property_of_settled holds (fun _ => hereditary.without grant modes holds) changed

theorem property_afterReleasing (hereditary : Grant.Hereditary property) (holds : property grant)
    (changed : afterReleasing uid uri modes grant = some left) : property left :=
  property_of_settled holds (fun _ => hereditary.release grant modes holds) changed

theorem property_afterExit (hereditary : Grant.Hereditary property) {pid : Nat}
    (holds : property grant) (changed : afterExit pid grant = some left) : property left :=
  property_of_settled holds (fun _ => hereditary.endSession grant holds) changed

theorem property_afterTaking (hereditary : Grant.Hereditary property) {victims : List GrantKey}
    (holds : property grant)
    (promoted : isPromoted uid uri modes grant = true → property (grant.promote modes now))
    (changed : afterTaking uid uri modes now victims grant = some left) : property left := by
  simp only [afterTaking] at changed
  split at changed
  · rename_i promotes
    have holds := promoted promotes
    exact property_of_settled holds (fun _ => hereditary.evict _ holds) changed
  · exact property_of_settled holds (fun _ => hereditary.evict _ holds) changed

theorem property_afterRollback {victims : List GrantKey} (holds : property grant)
    (promoted : isPromoted uid uri modes grant = true → grant.key ∈ victims →
      property (grant.promote modes now)) :
    property (afterRollback uid uri modes now victims grant) := by
  simp only [afterRollback]
  split
  · rename_i both
    exact promoted both.1 both.2
  · exact holds

end Hereditary

/-! ## Each kind of request -/

theorem Held.revoke (hereditary : Grant.Hereditary property) (held : authority.Held property)
    (modes : Modes) (user : Option Nat) :
    (authority.revoke uri modes user).authority.Held property := by
  have revoked : Held property { authority with table := authority.revoked uri modes user } :=
    held.of_revises revises_revoked fun _ _ _ => property_afterRevoking hereditary
  rcases authority.revoke_cases uri modes user with ⟨_, _, after⟩ | ⟨_, after⟩
  · rw [after]
    exact revoked
  · rw [after]
    exact revoked

/-- The grants that a request makes durable have a property then. If the request cannot be saved,
only those stay durable that were evicted. -/
def Promotes (property : Grant → Prop) (authority : Authority) : Request → Prop
  | .take now grantee uri modes => ∀ grant ∈ authority.promotable grantee.uid uri modes,
      (authority.store.failing = false ∨
        grant.key ∈ authority.victims now grantee.uid uri modes) →
      property (grant.promote modes now)
  | _ => True

theorem promotes_of_stable (stable : Grant.Stable property) (held : authority.Held property)
    (request : Request) : authority.Promotes property request := by
  cases request with
  | take now grantee uri modes =>
      intro grant promotable _
      rcases mem_promotable.1 promotable with ⟨member, promoted⟩
      simp only [isPromoted, decide_eq_true_eq] at promoted
      exact stable.promote grant modes now (held grant member) promoted.2.2
  | _ => trivial

theorem Held.take (hereditary : Grant.Hereditary property) (held : authority.Held property)
    (modes : Modes) (promotes : authority.Promotes property (.take now grantee uri modes)) :
    (authority.take now grantee uri modes).authority.Held property := by
  rcases authority.take_cases now grantee uri modes with
    ⟨error, after, _⟩ | ⟨_, ⟨working, after⟩ | ⟨_, after⟩⟩
  · rw [after]
    exact held
  · rw [after]
    refine held.of_revises revises_taken ?_
    intro grant member left holds changed
    apply property_afterTaking hereditary holds ?_ changed
    intro promoted
    exact promotes grant (mem_promotable.2 ⟨member, promoted⟩) (.inl working)
  · rw [after]
    refine held.of_revises revises_rolledBack ?_
    intro grant member left holds changed
    cases changed
    apply property_afterRollback holds
    intro promoted evicted
    exact promotes grant (mem_promotable.2 ⟨member, promoted⟩) (.inr evicted)

theorem Held.release (hereditary : Grant.Hereditary property) (held : authority.Held property)
    (modes : Modes) : (authority.release grantee uri modes).authority.Held property := by
  rcases authority.release_cases grantee uri modes with
    ⟨error, after, _⟩ | ⟨_, ⟨_, after⟩ | ⟨_, after⟩⟩
  · rw [after]
    exact held
  · rw [after]
    exact held.of_revises revises_released fun _ _ _ => property_afterReleasing hereditary
  · rw [after]
    refine held.of_revises revises_unreleased ?_
    intro grant _ left holds changed
    cases changed
    exact holds

theorem Held.exit (hereditary : Grant.Hereditary property) (held : authority.Held property)
    (pid : Nat) : (authority.exit pid).2.Held property :=
  held.of_revises revises_exit fun _ _ _ => property_afterExit hereditary

theorem Held.rearranged (held : authority.Held property) (order : KeyOrder) :
    (authority.rearranged order).Held property :=
  held.of_revises (revises_rearranged order) fun _ _ _ holds same => Option.some.inj same ▸ holds

theorem held_load {place : Placement} {settings : PermissionSettings} {store : GrantStore}
    (stored : ∀ kept ∈ store.records, property (.ofPersisted kept)) :
    (load place settings store).Held property := by
  intro grant member
  rcases exists_record_of_mem_load member with ⟨kept, inStore, rfl⟩
  exact stored kept inStore

theorem Held.grant (held : authority.Held property)
    (widens : authority.grantFault? grantor uri flags.modes = none →
      property (authority.widened now grantor uri flags grantee)) :
    (authority.grant now grantor uri flags grantee).authority.Held property := by
  rcases authority.grant_cases now grantor uri flags grantee with
    ⟨error, _, after⟩ | ⟨allowed, after⟩
  · rw [after]
    exact held
  · rw [after]
    exact held.granted (widens allowed)

theorem grantEach_cons_of_fault {error : Error}
    (refused : authority.grant now grantor uri flags grantee = authority.refuse error) :
    authority.grantEach now grantor flags grantee (uri :: uris) = authority.refuse error := by
  rw [grantEach, refused]
  rfl

theorem grantEach_cons_of_granted (uris : List Uri)
    (after : authority.grant now grantor uri flags grantee =
      ⟨.ok (authority.widened now grantor uri flags grantee),
        authority.granted now grantor uri flags grantee,
        [.granted uri grantee.uid flags.modes]⟩) :
    let first := authority.granted now grantor uri flags grantee
    let whole := authority.grantEach now grantor flags grantee (uri :: uris)
    whole.authority = (first.grantEach now grantor flags grantee uris).authority ∧
      whole.events = .granted uri grantee.uid flags.modes ::
        (first.grantEach now grantor flags grantee uris).events := by
  rw [grantEach, after]
  exact ⟨rfl, rfl⟩

/-- The induction is on the URIs: what is granted on the first of them is held when the others are
granted. -/
theorem grantEach_induction {invariant : Authority → Prop} (holds : invariant authority)
    (step : ∀ (current : Authority) uri,
      current.providers = authority.providers → invariant current →
      current.grantFault? grantor uri flags.modes = none →
      .granted uri grantee.uid flags.modes ∈
        (authority.grantEach now grantor flags grantee uris).events →
      invariant (current.granted now grantor uri flags grantee)) :
    invariant (authority.grantEach now grantor flags grantee uris).authority := by
  induction uris generalizing authority with
  | nil => exact holds
  | cons uri uris ih =>
      rcases authority.grant_cases now grantor uri flags grantee with
        ⟨error, _, after⟩ | ⟨allowed, after⟩
      · rw [grantEach_cons_of_fault after]
        exact holds
      · rcases grantEach_cons_of_granted uris after with ⟨authorityAfter, eventsAfter⟩
        rw [authorityAfter]
        rw [eventsAfter] at step
        apply ih (step authority uri rfl holds allowed (.head _))
        intro current other providers holds allowed announced
        exact step current other providers holds allowed (.tail _ announced)

/-! ## Requests and histories -/

theorem mem_ofEvents {events : List Event} {uid : Nat} {modes : Modes}
    (announced : .granted uri uid modes ∈ events) :
    ⟨grantor, uri, flags, grantee⟩ ∈ Delegation.ofEvents grantor flags grantee events :=
  List.mem_filterMap.2 ⟨_, announced, rfl⟩

/-- What a request grants has a property if all that is held by then has it. -/
def Widens (property : Grant → Prop) (authority : Authority) (request : Request) : Prop :=
  ∀ (current : Authority) now, ∀ delegation ∈ authority.delegations request,
    current.providers = authority.providers → current.Held property →
    current.grantFault? delegation.grantor delegation.uri delegation.flags.modes = none →
    property (current.widened now delegation.grantor delegation.uri delegation.flags
        delegation.grantee)

theorem Held.perform (hereditary : Grant.Hereditary property) (held : authority.Held property)
    (request : Request) (promotes : authority.Promotes property request)
    (widens : authority.Widens property request)
    (reloads : request = .reload → ∀ kept ∈ authority.store.records,
      property (.ofPersisted kept)) :
    (authority.perform request).authority.Held property := by
  cases request with
  | register info => exact held
  | unregister name => exact held
  | grant now grantor uri flags grantee =>
      refine held.grant ?_
      intro allowed
      refine widens authority now ⟨grantor, uri, flags, grantee⟩ ?_ rfl held allowed
      rcases authority.grant_cases now grantor uri flags grantee with
        ⟨error, refused, _⟩ | ⟨_, after⟩
      · rw [refused] at allowed
        cases allowed
      · apply mem_ofEvents
        rw [Authority.perform, Outcome.withoutAnswer, after]
        exact .head _
  | dispatch now caller intent receiver =>
      have delegations : authority.delegations (.dispatch now caller intent receiver) =
        Delegation.ofEvents caller (.ofIntentFlags intent.flags) receiver
          (authority.dispatch now caller intent receiver).events := rfl
      change (authority.dispatch now caller intent receiver).authority.Held property
      simp only [Widens, delegations] at widens
      simp only [dispatch] at widens ⊢
      split at widens
      · rename_i none
        rw [if_pos none]
        exact held
      · rename_i some
        rw [if_neg some]
        apply grantEach_induction held
        intro current uri providers held allowed announced
        apply held.granted
        exact widens current now ⟨_, _, _, _⟩ (mem_ofEvents announced) providers held allowed
  | revoke uri modes user => exact held.revoke hereditary modes user
  | take now grantee uri modes => exact held.take hereditary modes promotes
  | release grantee uri modes => exact held.release hereditary modes
  | exit pid => exact held.exit hereditary pid
  | storeFails failing => exact held
  | reload => exact held_load (reloads rfl)
  | rearrange order => exact held.rearranged order

/-- Whether a request writes the store, and the store can be written. -/
def writes (authority : Authority) (request : Request) : Bool :=
  authority.saves request && !authority.store.failing

/-- A request that writes the store leaves in it what is durable then, and any other request leaves
the store alone. -/
theorem records_perform (authority : Authority) (request : Request) :
    (authority.perform request).authority.store.records =
      if authority.writes request then
        (authority.perform request).authority.table.persisted fun _ => true
      else authority.store.records := by
  cases request with
  | grant now grantor uri flags grantee =>
      change (authority.grant now grantor uri flags grantee).authority.store.records = _
      rcases authority.grant_cases now grantor uri flags grantee with ⟨_, _, after⟩ | ⟨_, after⟩
      · rw [after]
        rfl
      · rw [after]
        rfl
  | dispatch now caller intent receiver =>
      let keeps (current : Authority) : Prop :=
        current.store.records = authority.store.records
      change keeps (authority.dispatch now caller intent receiver).authority
      have unchanged : keeps authority := rfl
      simp only [dispatch]
      split
      · exact unchanged
      · exact grantEach_induction unchanged fun _ _ _ same _ _ => same
  | revoke uri modes user =>
      change (authority.revoke uri modes user).authority.store.records =
        if authority.revokesDurable uri modes user && !authority.store.failing then
          (authority.revoke uri modes user).authority.table.persisted fun _ => true
        else authority.store.records
      rcases authority.revoke_cases uri modes user with ⟨durable, working, after⟩ | ⟨unsaved, after⟩
      · rw [after, durable, working]
        rfl
      · rw [after, if_neg]
        rcases unsaved with transient | failing
        · simp [transient]
        · simp [failing]
  | take now grantee uri modes =>
      change (authority.take now grantee uri modes).authority.store.records =
        if !(authority.promotable grantee.uid uri modes).isEmpty && !authority.store.failing then
          (authority.take now grantee uri modes).authority.table.persisted fun _ => true
        else authority.store.records
      rcases authority.take_cases now grantee uri modes with
        ⟨_, after, none⟩ | ⟨some, ⟨working, after⟩ | ⟨failing, after⟩⟩
      · rw [after, none]
        rfl
      · simp [after, working, some, saved]
      · simp [after, failing]
  | release grantee uri modes =>
      change (authority.release grantee uri modes).authority.store.records =
        if !(authority.releasable grantee.uid uri modes).isEmpty && !authority.store.failing then
          (authority.release grantee uri modes).authority.table.persisted fun _ => true
        else authority.store.records
      rcases authority.release_cases grantee uri modes with
        ⟨_, after, none⟩ | ⟨some, ⟨working, after⟩ | ⟨failing, after⟩⟩
      · rw [after, none]
        rfl
      · simp [after, working, some, saved]
      · simp [after, failing]
  | _ => rfl

/-- If a request writes the store, what the table has then is all that is stored. -/
theorem Held.everywhere_perform (hereditary : Grant.Hereditary property) {request : Request}
    (held : (authority.perform request).authority.Held property)
    (stored : authority.writes request = false → ∀ kept ∈ authority.store.records,
      property (.ofPersisted kept)) :
    (authority.perform request).authority.Everywhere property := by
  refine ⟨held, ?_⟩
  intro kept member
  rw [records_perform] at member
  split at member
  · rcases GrantTable.mem_persisted_iff.1 member with ⟨grant, member, _, made⟩
    exact hereditary.reload grant kept (held grant member) made
  · rename_i unwritten
    exact stored (Bool.eq_false_iff.2 unwritten) kept member

theorem Everywhere.perform_of_promotes (hereditary : Grant.Hereditary property)
    (holds : authority.Everywhere property) (request : Request)
    (promotes : authority.Promotes property request) (widens : authority.Widens property request) :
    (authority.perform request).authority.Everywhere property := by
  have held := Held.perform hereditary holds.held request promotes widens fun _ => holds.stored
  exact held.everywhere_perform hereditary fun _ => holds.stored

theorem Everywhere.perform (stable : Grant.Stable property) (holds : authority.Everywhere property)
    (request : Request) (widens : authority.Widens property request) :
    (authority.perform request).authority.Everywhere property :=
  holds.perform_of_promotes stable.toHereditary request
    (promotes_of_stable stable holds.held request) widens

/-- An invariant of all grants that does not depend on what was granted before. -/
theorem Everywhere.run (stable : Grant.Stable property) (holds : authority.Everywhere property)
    (widens : ∀ authority request, Widens property authority request) (requests : List Request) :
    (authority.run requests).Everywhere property := by
  induction requests generalizing authority with
  | nil => exact holds
  | cons request requests ih => exact ih (holds.perform stable request (widens authority request))

end Authority

end IntentRouting
