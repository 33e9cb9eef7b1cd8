import IntentRouting.Proofs.Permission.Soundness
import Mathlib.Data.List.Nodup

/-!
# What is kept of a table

A table determines one record at most for each key, `GrantTable.record?`: what is kept of the grant
of the key.

Not every request that changes grants writes the store. `Authority.record?_perform` says what such a
request does to the records: the end of a process and the loss of transient modes leave them alone,
and granting access anew puts another grantor into them.
-/

namespace IntentRouting

/-- What becomes of a record when access is granted anew under its key. -/
def Delegation.renew (kept : PersistedGrant) (delegation : Delegation) : PersistedGrant :=
  if delegation.key = kept.key then { kept with grantor := delegation.grantor.uid } else kept

@[simp]
theorem Delegation.key_renew (kept : PersistedGrant) (delegation : Delegation) :
    (renew kept delegation).key = kept.key := by
  rw [renew]
  split <;> rfl

namespace Grant

variable {grant : Grant}

theorem toPersisted?_of_isEmpty (empty : grant.isEmpty = true) : grant.toPersisted? = none := by
  have transient : grant.persisted.isEmpty = true := by
    rw [FlagSet.isEmpty_iff]
    intro bit durable
    have nonempty := isEmpty_eq_false_iff.2 ⟨bit, .inr (.inr durable)⟩
    rw [empty] at nonempty
    cases nonempty
  rw [toPersisted?, if_pos transient]

theorem settled_bind_toPersisted? : grant.settled.bind toPersisted? = grant.toPersisted? := by
  simp only [settled]
  split
  · rename_i empty
    rw [Option.bind_none, toPersisted?_of_isEmpty empty]
  · rfl

theorem toPersisted?_ofKey {key : GrantKey} {grantor : Nat} {now : Timestamp} :
    (ofKey key grantor now).toPersisted? = none := by
  rw [toPersisted?, ofKey, FlagSet.isEmpty_empty, if_pos rfl]

theorem toPersisted?_widen {grantor pid : Nat} {modes : Modes} {persistable : Bool} :
    (grant.widen grantor pid modes persistable).toPersisted? =
      grant.toPersisted?.map fun kept => { kept with grantor } := by
  by_cases transient : grant.persisted.isEmpty = true <;> simp [toPersisted?, widen, transient]

theorem toPersisted?_endSession : grant.endSession.toPersisted? = grant.toPersisted? := rfl

theorem toPersisted?_without {modes : Modes}
    (transient : grant.persisted.intersects modes = false) :
    (grant.without modes).toPersisted? = grant.toPersisted? := by
  have same : grant.persisted \ modes = grant.persisted := by
    ext bit
    rw [FlagSet.mem_sdiff, and_iff_left_iff_imp]
    intro durable taken
    have both := FlagSet.intersects_iff.2 ⟨bit, taken, durable⟩
    rw [transient] at both
    cases both
  rw [toPersisted?, toPersisted?, without, same]

theorem toPersisted?_ofPersisted {kept : PersistedGrant} (sound : (ofPersisted kept).Sound) :
    (ofPersisted kept).toPersisted? = some kept := by
  have durable : kept.modes.isEmpty = false := by
    rcases isEmpty_eq_false_iff.1 sound.nonempty with ⟨bit, transient | promised | durable⟩
    · exact absurd transient FlagSet.not_mem_empty
    · exact FlagSet.isEmpty_eq_false_iff.2 ⟨bit, promised⟩
    · exact FlagSet.isEmpty_eq_false_iff.2 ⟨bit, durable⟩
  rw [toPersisted?, ofPersisted, durable]
  rfl

end Grant

/-! ## The records of a table -/

namespace GrantTable

variable {table left right : GrantTable} {key : GrantKey} {kept : PersistedGrant}
  {condition : Grant → Bool} {selected : PersistedGrant → Bool}

/-- What is kept of the grant of a key. -/
def record? (table : GrantTable) (key : GrantKey) : Option PersistedGrant :=
  (table.find? key).bind Grant.toPersisted?

theorem key_of_record? (found : table.record? key = some kept) : kept.key = key := by
  rcases Option.bind_eq_some_iff.1 found with ⟨grant, found, made⟩
  rw [PersistedGrant.key_of_toPersisted? made, key_of_find? found]

theorem record?_of_revises {change : Grant → Option Grant} (revises : left.Revises right change)
    (keeps : ∀ grant ∈ right.grants,
      (change grant).bind Grant.toPersisted? = grant.toPersisted?) :
    left.record? key = right.record? key := by
  rw [record?, record?, revises key, Option.bind_assoc]
  cases found : right.find? key with
  | none => rfl
  | some grant => exact keeps grant (find?_eq_some_iff.1 found).1

/-- A condition on grants that can be read off their records. -/
def IsRecorded (condition : Grant → Bool) (selected : PersistedGrant → Bool) : Prop :=
  ∀ grant kept, grant.toPersisted? = some kept → condition grant = selected kept

theorem mem_persisted_iff_record? (recorded : IsRecorded condition selected) :
    kept ∈ table.persisted condition ↔
      table.record? kept.key = some kept ∧ selected kept = true := by
  rw [mem_persisted_iff, record?, Option.bind_eq_some_iff]
  constructor
  · rintro ⟨grant, member, satisfied, made⟩
    rw [recorded grant kept made] at satisfied
    rw [PersistedGrant.key_of_toPersisted? made]
    exact ⟨⟨grant, mem_grants_iff.1 member, made⟩, satisfied⟩
  · rintro ⟨⟨grant, found, made⟩, satisfied⟩
    rw [← recorded grant kept made] at satisfied
    exact ⟨grant, (find?_eq_some_iff.1 found).1, satisfied, made⟩

theorem isRecorded_true : IsRecorded (fun _ => true) fun _ => true := fun _ _ _ => rfl

theorem record?_eq_some_iff : table.record? key = some kept ↔
    kept ∈ table.persisted (fun _ => true) ∧ kept.key = key := by
  rw [mem_persisted_iff_record? isRecorded_true, and_iff_left rfl]
  constructor
  · intro record
    have keyed := key_of_record? record
    exact ⟨keyed ▸ record, keyed⟩
  · rintro ⟨record, rfl⟩
    exact record

end GrantTable

namespace GrantStore

variable {store : GrantStore} {key : GrantKey} {kept : PersistedGrant}

theorem find?_of_nodup (nodup : (store.records.map PersistedGrant.key).Nodup) :
    store.find? key = some kept ↔ kept ∈ store.records ∧ kept.key = key := by
  simp only [find?]
  constructor
  · intro last
    rcases List.mem_filter.1 (List.mem_of_getLast? last) with ⟨member, keyed⟩
    exact ⟨member, (of_decide_eq_true keyed).symm⟩
  · rintro ⟨member, rfl⟩
    have among : kept ∈ store.records.filter fun other => kept.key = other.key :=
      List.mem_filter.2 ⟨member, decide_eq_true rfl⟩
    cases last : (store.records.filter fun other => kept.key = other.key).getLast? with
    | none =>
        rw [List.getLast?_eq_none_iff.1 last] at among
        cases among
    | some other =>
        rcases List.mem_filter.1 (List.mem_of_getLast? last) with ⟨otherMember, keyed⟩
        rw [List.inj_on_of_nodup_map nodup otherMember member (of_decide_eq_true keyed).symm]

theorem find?_of_records_perm {table : GrantTable}
    (records : store.records.Perm (table.persisted fun _ => true)) :
    store.find? key = table.record? key := by
  have nodup : (store.records.map PersistedGrant.key).Nodup :=
    (records.map PersistedGrant.key).nodup_iff.2 GrantTable.persisted_keys_nodup
  ext kept
  rw [find?_of_nodup nodup, records.mem_iff, GrantTable.record?_eq_some_iff]

end GrantStore

/-! ## Requests that write nothing -/

namespace Authority

variable {authority : Authority} {now : Timestamp} {grantor grantee : Identity} {uri : Uri}
  {flags : GrantFlags} {key : GrantKey}

theorem record?_granted : (authority.granted now grantor uri flags grantee).table.record? key =
    (authority.table.record? key).map (Delegation.renew · ⟨grantor, uri, flags, grantee⟩) := by
  rcases authority.exists_prior now grantor uri flags grantee with ⟨prior, widened, _, found⟩
  rw [granted, GrantTable.record?, GrantTable.find?_put, key_widened]
  split
  · rename_i same
    have before : authority.table.record? key = prior.toPersisted? := by
      rw [GrantTable.record?, same]
      rcases found with found | ⟨found, rfl⟩
      · rw [found, Option.bind_some]
      · rw [found, Option.bind_none, Grant.toPersisted?_ofKey]
    rw [Option.bind_some, widened, Grant.toPersisted?_widen, ← before]
    apply Option.map_congr
    intro kept record
    simp [Delegation.renew, Delegation.key, GrantTable.key_of_record? record, same]
  · rename_i different
    change authority.table.record? key = _
    cases record : authority.table.record? key with
    | none => rfl
    | some kept =>
        simp [Delegation.renew, Delegation.key, GrantTable.key_of_record? record, Ne.symm different]

theorem record?_grantEach (uris : List Uri) :
    let outcome := authority.grantEach now grantor flags grantee uris
    outcome.authority.table.record? key = (authority.table.record? key).map fun kept =>
      (Delegation.ofEvents grantor flags grantee outcome.events).foldl Delegation.renew kept := by
  induction uris generalizing authority with
  | nil => exact Option.map_id'.symm
  | cons uri uris ih =>
      intro outcome
      rcases authority.grant_cases now grantor uri flags grantee with
        ⟨error, _, after⟩ | ⟨_, after⟩
      · rw [show outcome = authority.refuse error from grantEach_cons_of_fault after]
        exact Option.map_id'.symm
      · rcases grantEach_cons_of_granted uris after with ⟨authorityAfter, eventsAfter⟩
        rw [authorityAfter, eventsAfter, ih, record?_granted, Option.map_map]
        rfl

/-- A request that does not write the store leaves each record as it is, but for the grantor. -/
theorem record?_perform (request : Request) (unsaved : authority.saves request = false)
    (running : request ≠ .reload) :
    (authority.perform request).authority.table.record? key =
      (authority.table.record? key).map fun kept =>
        (authority.delegations request).foldl Delegation.renew kept := by
  have alone : ∀ {record : Option PersistedGrant}, record = record.map fun kept =>
      [].foldl Delegation.renew kept := Option.map_id'.symm
  cases request with
  | register info => exact alone
  | unregister name => exact alone
  | grant now grantor uri flags grantee =>
      simp only [perform, delegations, Outcome.withoutAnswer]
      rcases authority.grant_cases now grantor uri flags grantee with ⟨error, _, after⟩ | ⟨_, after⟩
      · rw [after]
        exact alone
      · rw [after]
        exact record?_granted
  | dispatch now caller intent receiver =>
      simp only [perform, delegations, Outcome.withoutAnswer, dispatch]
      split
      · exact alone
      · exact record?_grantEach intent.reachedContent
  | revoke uri modes user =>
      have transient : authority.revokesDurable uri modes user = false := unsaved
      have after : (authority.perform (.revoke uri modes user)).authority =
          { authority with table := authority.revoked uri modes user } := by
        rcases authority.revoke_cases uri modes user with ⟨durable, _⟩ | ⟨_, after⟩
        · rw [transient] at durable
          cases durable
        · exact after
      rw [after]
      refine (GrantTable.record?_of_revises revises_revoked ?_).trans alone
      intro grant member
      simp only [afterRevoking]
      split
      · rename_i revoked
        have kept := List.any_eq_false.1 transient grant (mem_revocable.2 ⟨member, revoked⟩)
        rw [Grant.settled_bind_toPersisted?,
          Grant.toPersisted?_without (Bool.eq_false_iff.2 kept)]
      · rfl
  | take now grantee uri modes =>
      rcases authority.take_cases now grantee uri modes with ⟨error, after, _⟩ | ⟨some, _⟩
      · rw [perform, after]
        exact alone
      · simp [saves, some] at unsaved
  | release grantee uri modes =>
      rcases authority.release_cases grantee uri modes with ⟨error, after, _⟩ | ⟨some, _⟩
      · rw [perform, after]
        exact alone
      · simp [saves, some] at unsaved
  | exit pid =>
      refine (GrantTable.record?_of_revises revises_exit ?_).trans alone
      intro grant _
      simp only [afterExit]
      split
      · rw [Grant.settled_bind_toPersisted?, Grant.toPersisted?_endSession]
      · rfl
  | storeFails failing => exact alone
  | reload => exact absurd rfl running
  | rearrange order =>
      exact (GrantTable.record?_of_revises (revises_rearranged order) fun _ _ => rfl).trans alone

/-- A request that saves leaves the records of the table in the store, if it can, and any other
request leaves the store alone. -/
theorem records_perform_cases (request : Request)
    (succeeds : authority.saves request = true → authority.store.failing = false) :
    (authority.saves request = true ∧ (authority.perform request).authority.store.records =
        (authority.perform request).authority.table.persisted fun _ => true) ∨
      authority.saves request = false ∧
        (authority.perform request).authority.store.records = authority.store.records := by
  have records := authority.records_perform request
  cases saving : authority.saves request with
  | true =>
      rw [writes, saving, succeeds saving] at records
      exact .inl ⟨rfl, records⟩
  | false =>
      rw [writes, saving] at records
      exact .inr ⟨rfl, records⟩

theorem record?_load {place : Placement} {settings : PermissionSettings} {store : GrantStore}
    (sound : ∀ kept ∈ store.records, (Grant.ofPersisted kept).Sound) :
    (load place settings store).table.record? key = store.find? key := by
  rw [GrantTable.record?, find?_load]
  cases last : store.find? key with
  | none => rfl
  | some kept =>
      have member := (List.mem_filter.1 (List.mem_of_getLast? last)).1
      exact Grant.toPersisted?_ofPersisted (sound kept member)

end Authority

end IntentRouting
