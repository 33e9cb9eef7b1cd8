import IntentRouting.Proofs.Permission.Access
import IntentRouting.Proofs.Permission.Records

/-!
# Restarts

What is durable outlives the authority in its store, and what is not ends with the processes of the
users. So a restart and the end of all processes come to the same: the authority that is made again
from the store has the grants that are left of the old one when every process has ended
(`Authority.restart_eq_exits`).

The store is written when something durable changes, not with every request, so what it holds has to
be shown to be current (`Authority.Current`): for each key it has the durable modes of the grant and
the moment of their last change. Who granted them is not current, since a grant that is made again
by another user is not saved. The other half is that the end of a process leaves of a sound grant
exactly what its record says (`Grant.Sound.standing_of_ended`).
-/

namespace IntentRouting

/-- What a restart keeps of a record: its modes and its moment. -/
def PersistedGrant.substance (kept : PersistedGrant) : Modes × Timestamp :=
  (kept.modes, kept.persistedAt)

namespace Grant

variable {grant : Grant}

/-- The modes of a grant and the moment of its last change that is durable. -/
def standing (grant : Grant) : Modes × Modes × Modes × Option Timestamp :=
  (grant.transient, grant.persistable, grant.persisted, grant.persistedAt)

/-- The modes and the moment of a grant that is made again from a record. -/
def recorded (substance : Modes × Timestamp) : Modes × Modes × Modes × Option Timestamp :=
  (.empty, substance.1, substance.1, some substance.2)

/-- What the end of its process leaves of a grant is what its record says. -/
theorem Sound.standing_of_ended (sound : grant.Sound) :
    grant.endSession.settled.map standing =
      (grant.toPersisted?.map PersistedGrant.substance).map recorded := by
  simp only [settled, toPersisted?]
  by_cases transient : grant.persisted.isEmpty = true
  · have gone : grant.endSession.isEmpty = true := by
      rw [← Bool.not_eq_false, isEmpty_eq_false_iff]
      rintro ⟨bit, held | promised | durable⟩
      · exact FlagSet.not_mem_empty held
      · exact FlagSet.isEmpty_iff.1 transient bit (FlagSet.mem_inter.1 promised).2
      · exact FlagSet.isEmpty_iff.1 transient bit durable
    rw [if_pos gone, if_pos transient]
    rfl
  · have some := Bool.eq_false_iff.2 transient
    rcases FlagSet.isEmpty_eq_false_iff.1 some with ⟨bit, durable⟩
    have left : grant.endSession.isEmpty = false :=
      isEmpty_eq_false_iff.2 ⟨bit, .inr (.inr durable)⟩
    have promised : grant.persistable ∩ grant.persisted = grant.persisted := by
      ext bit
      rw [FlagSet.mem_inter, and_iff_right_iff_imp]
      exact sound.promised bit
    rcases Option.isSome_iff_exists.1 (sound.dated some) with ⟨moment, dated⟩
    rw [left, some]
    simp [standing, endSession, recorded, PersistedGrant.substance, promised, dated]

/-- Of a sound grant without a process everything is left. -/
theorem Sound.settled_endSession (sound : grant.Sound) (ended : grant.session = none) :
    grant.endSession.settled = some grant := by
  rcases sound.idle ended with ⟨none, durable⟩
  have transient : grant.transient = .empty := by
    ext bit
    simp [none bit]
  have promised : grant.persistable ∩ grant.persisted = grant.persistable := by
    ext bit
    rw [FlagSet.mem_inter, and_iff_left_iff_imp]
    exact durable bit
  have same : grant.endSession = grant := by
    rw [endSession, promised, ← transient, ← ended]
  rw [same, settled_eq_some_iff]
  exact ⟨sound.nonempty, rfl⟩

end Grant

namespace Authority

variable {authority : Authority} {key : GrantKey}

/-! ## The store is current -/

/-- For each key the store has what is durable of its grant. -/
def Current (authority : Authority) : Prop :=
  ∀ key, (authority.store.find? key).map PersistedGrant.substance =
    (authority.table.record? key).map PersistedGrant.substance

theorem current_new (place : Placement) (settings : PermissionSettings) :
    (new place settings .empty).Current := by
  intro key
  rw [new, GrantTable.record?, GrantTable.find?_empty]
  rfl

theorem substance_foldl_renew (delegations : List Delegation) (kept : PersistedGrant) :
    (delegations.foldl Delegation.renew kept).substance = kept.substance := by
  induction delegations generalizing kept with
  | nil => rfl
  | cons delegation delegations ih =>
      rw [List.foldl_cons, ih, Delegation.renew]
      split <;> rfl

/-- The store stays current, if a request that writes it can write it. -/
theorem Current.perform (current : authority.Current) (sound : authority.Everywhere Grant.Sound)
    (request : Request)
    (succeeds : authority.saves request = true → authority.store.failing = false) :
    (authority.perform request).authority.Current := by
  intro key
  rcases authority.records_perform_cases request succeeds with
    ⟨_, records⟩ | ⟨unsaved, records⟩
  · rw [GrantStore.find?_of_records_perm (.of_eq records)]
  · by_cases reloads : request = .reload
    · subst reloads
      change (authority.store.find? key).map _ = (authority.reload.table.record? key).map _
      rw [reload, record?_load sound.stored]
    · have stored : (authority.perform request).authority.store.find? key =
          authority.store.find? key := by
        rw [GrantStore.find?, records, GrantStore.find?]
      rw [stored, current key, record?_perform request unsaved reloads, Option.map_map]
      apply Option.map_congr
      intro kept _
      exact (substance_foldl_renew (authority.delegations request) kept).symm

/-- The store is current after every history in which it can be written. -/
theorem Current.run {requests : List Request} (current : authority.Current)
    (sound : authority.Everywhere Grant.Sound) (succeed : authority.SavesSucceed requests) :
    (authority.run requests).Current := by
  induction requests generalizing authority with
  | nil => exact current
  | cons request requests ih =>
      rcases succeed with ⟨succeeds, succeed⟩
      have soundAfter := sound.perform Grant.stable_sound request (widens_sound authority request)
      exact ih (current.perform sound request succeeds) soundAfter succeed

/-! ## The end of all processes -/

/-- The authority after the end of some processes. -/
def exits (authority : Authority) (pids : List Nat) : Authority :=
  pids.foldl (fun authority pid => (authority.exit pid).2) authority

/-- The authority that is made again from its store, with the same providers. -/
def restart (authority : Authority) (place : Placement) : Authority :=
  { load place authority.settings authority.store with providers := authority.providers }

/-- What the end of some processes leaves of a grant. -/
def afterExits (pids : List Nat) (grant : Grant) : Option Grant :=
  if grant.session.any (· ∈ pids) then grant.endSession.settled else some grant

theorem afterExits_cons {pid : Nat} {pids : List Nat} {grant : Grant} :
    (afterExit pid grant).bind (afterExits pids) = afterExits (pid :: pids) grant := by
  by_cases ended : grant.session = some pid
  · have whole : afterExits (pid :: pids) grant = grant.endSession.settled := by
      simp [afterExits, ended]
    rw [whole, afterExit, if_pos ended]
    simp only [Grant.settled]
    split
    · rfl
    · simp [afterExits, Grant.endSession]
  · have others : grant.session.any (· ∈ pid :: pids) = grant.session.any (· ∈ pids) := by
      cases session : grant.session with
      | none => rfl
      | some other =>
          have different : other ≠ pid := fun same => ended (same ▸ session)
          simp [different]
    rw [afterExit, if_neg ended, Option.bind_some, afterExits, afterExits, others]

theorem revises_exits (pids : List Nat) :
    (authority.exits pids).table.Revises authority.table (afterExits pids) := by
  induction pids generalizing authority with
  | nil =>
      refine (GrantTable.Revises.refl authority.table).congr ?_
      intro grant _
      cases session : grant.session <;> simp [afterExits, session]
  | cons pid pids ih =>
      have first : (authority.exit pid).2.table.Revises authority.table (afterExit pid) :=
        revises_exit
      refine (ih.trans first).congr ?_
      intro grant _
      exact afterExits_cons

theorem exits_frame (authority : Authority) (pids : List Nat) :
    (authority.exits pids).settings = authority.settings ∧
      (authority.exits pids).providers = authority.providers := by
  induction pids generalizing authority with
  | nil => exact ⟨rfl, rfl⟩
  | cons pid pids ih => exact ih (authority.exit pid).2

/-- When all processes have ended, of every sound grant is left what its record says. -/
theorem find?_exits (sound : authority.Everywhere Grant.Sound) {pids : List Nat}
    (complete : ∀ grant ∈ authority.table.grants, ∀ pid ∈ grant.session, pid ∈ pids) :
    (authority.exits pids).table.find? key =
      (authority.table.find? key).bind fun grant => grant.endSession.settled := by
  refine (revises_exits pids).congr ?_ key
  intro grant member
  simp only [afterExits]
  split
  · rfl
  · rename_i running
    cases session : grant.session with
    | none => exact ((sound.held grant member).settled_endSession session).symm
    | some pid =>
        have ended := complete grant member pid session
        simp [session, ended] at running

/-! ## Restarts -/

/-- If its store is current and its grants are sound, an authority that is made again has the grants
that are left of the old one at the end of all processes. -/
theorem standing_restart (current : authority.Current) (sound : authority.Everywhere Grant.Sound)
    {pids : List Nat}
    (complete : ∀ grant ∈ authority.table.grants, ∀ pid ∈ grant.session, pid ∈ pids)
    (place : Placement) (key : GrantKey) :
    ((authority.restart place).table.find? key).map Grant.standing =
      ((authority.exits pids).table.find? key).map Grant.standing := by
  have restarted : (authority.restart place).table.find? key =
      (authority.store.find? key).map Grant.ofPersisted :=
    find?_load place authority.settings authority.store key
  have recorded : (authority.store.find? key).map (Grant.standing ∘ Grant.ofPersisted) =
      ((authority.store.find? key).map PersistedGrant.substance).map Grant.recorded := by
    rw [Option.map_map]
    rfl
  rw [restarted, Option.map_map, recorded, current key, find?_exits sound complete,
    GrantTable.record?, Option.map_bind, Option.map_bind, Option.map_bind]
  cases found : authority.table.find? key with
  | none => rfl
  | some grant =>
      have member := (GrantTable.find?_eq_some_iff.1 found).1
      exact (sound.held grant member).standing_of_ended.symm

theorem effectiveAt_congr {left right : GrantTable}
    (same : (left.find? key).map Grant.standing = (right.find? key).map Grant.standing) :
    left.effectiveAt key = right.effectiveAt key := by
  have effective : ∀ table : GrantTable, table.effectiveAt key =
      (((table.find? key).map Grant.standing).map fun standing =>
        standing.1 ∪ standing.2.2.1).getD .empty := by
    intro table
    simp only [GrantTable.effectiveAt]
    cases table.find? key <;> rfl
  rw [effective, effective, same]

/-- After a history in which the store could be written, an authority that is made again from the
store and the authority at the end of all processes have grants under the same keys, with the same
modes and moments, and they allow the same access. -/
theorem restart_eq_exits (place place' : Placement) (settings : PermissionSettings)
    {requests : List Request} (succeed : (new place settings .empty).SavesSucceed requests)
    {pids : List Nat}
    (complete : ∀ grant ∈ ((new place settings .empty).run requests).table.grants,
      ∀ pid ∈ grant.session, pid ∈ pids) :
    let restarted := ((new place settings .empty).run requests).restart place'
    let ended := ((new place settings .empty).run requests).exits pids
    (∀ key, (restarted.table.find? key).map Grant.standing =
        (ended.table.find? key).map Grant.standing) ∧
      ∀ caller uri modes, restarted.check caller uri modes = ended.check caller uri modes := by
  intro restarted ended
  have sound := sound_run place settings requests
  have current := (current_new place settings).run (everywhere_new _ place settings) succeed
  have standing := standing_restart current sound complete place'
  refine ⟨standing, ?_⟩
  intro caller uri modes
  rcases exits_frame ((new place settings .empty).run requests) pids with ⟨sameSettings, providers⟩
  exact check_congr providers.symm sameSettings.symm fun key => effectiveAt_congr (standing key)

/-- A viewer keeps durable access to a note through a restart, as through the end of its process. -/
theorem restart_of_kept_note :
    let running := (Notes.start 512).run Notes.keeping
    (Notes.start 512).SavesSucceed Notes.keeping ∧
      (∀ grant ∈ running.table.grants, ∀ pid ∈ grant.session, pid ∈ [Notes.viewer.pid]) ∧
      (∀ key, ((running.restart fun _ _ => 1).table.find? key).map Grant.standing =
        ((running.exits [Notes.viewer.pid]).table.find? key).map Grant.standing) ∧
      ∀ caller uri modes, (running.restart fun _ _ => 1).check caller uri modes =
        (running.exits [Notes.viewer.pid]).check caller uri modes := by
  intro running
  have succeed : (Notes.start 512).SavesSucceed Notes.keeping := by decide +kernel
  have complete : ∀ grant ∈ running.table.grants, ∀ pid ∈ grant.session,
      pid ∈ [Notes.viewer.pid] := by
    decide +kernel
  exact ⟨succeed, complete, restart_eq_exits _ (fun _ _ => 1) _ succeed complete⟩

end Authority

end IntentRouting
