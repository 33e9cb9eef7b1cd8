import IntentRouting.Permission.History

/-!
# Requests as revisions

Every request but those that grant access, and the reloading of the store, changes each grant on its
own: what is left of a grant depends on that grant and on the request, and no grant is made. This is
said by `GrantTable.Revises`, and each request has one theorem here that says which change it makes.
The proofs about histories use these theorems and never open a request.

A list of grants that was selected from a table is changed one after the other. Since the keys are
distinct the changes do not meet, so the sequence is a revision (`GrantTable.revises_foldl`). The
one place where two changes meet is the rollback of `Authority.take`: a grant can be made durable
and be evicted in the same request, and what was put back of its first copy is then overwritten by
its second one. `Authority.revises_rolledBack` states what comes of it.
-/

namespace IntentRouting

/-- A table in which each grant of another was changed, or removed, on its own. -/
def GrantTable.Revises (after before : GrantTable) (change : Grant → Option Grant) : Prop :=
  ∀ key, after.find? key = (before.find? key).bind change

namespace GrantTable

variable {before middle after : GrantTable} {first second change : Grant → Option Grant}

theorem Revises.refl (table : GrantTable) : table.Revises table some := by
  intro key
  simp

theorem Revises.trans (later : after.Revises middle second)
    (earlier : middle.Revises before first) :
    after.Revises before fun grant => (first grant).bind second := by
  intro key
  rw [later key, earlier key, Option.bind_assoc]

theorem Revises.mem_grants (revises : after.Revises before change) {grant : Grant}
    (member : grant ∈ after.grants) : ∃ prior ∈ before.grants, change prior = some grant := by
  have found := revises grant.key
  rw [mem_grants_iff.1 member, eq_comm, Option.bind_eq_some_iff] at found
  rcases found with ⟨prior, found, changed⟩
  exact ⟨prior, (find?_eq_some_iff.1 found).1, changed⟩

theorem Revises.congr (revises : after.Revises before first)
    (same : ∀ grant ∈ before.grants, first grant = second grant) : after.Revises before second := by
  intro key
  rw [revises key]
  cases found : before.find? key with
  | none => rfl
  | some grant => exact same grant (find?_eq_some_iff.1 found).1

/-! ## Sequences of changes -/

/-- Among grants with distinct keys, those with one key are the grant of that key. -/
theorem filter_key_eq {grants : Shard} (distinct : grants.Distinct) (key : GrantKey) :
    grants.filter (fun grant => key = grant.key) = (grants.find? key).toList := by
  induction grants with
  | nil => rfl
  | cons grant rest ih =>
      rcases List.pairwise_cons.1 distinct with ⟨apart, distinct⟩
      rw [List.filter_cons, ih distinct, Shard.find?, Shard.find?, List.find?_cons]
      by_cases same : grant.key = key
      · have absent : List.find? (fun grant => grant.key = key) rest = none := by
          rw [List.find?_eq_none]
          intro other member
          simpa [← same, eq_comm] using apart other member
        simp [same, absent]
      · simp [same, Ne.symm same]

/-- The grants that a table has and that satisfy a condition. -/
def Selects (selected : Shard) (table : GrantTable) (condition : Grant → Bool) : Prop :=
  selected.Distinct ∧ ∀ grant, grant ∈ selected ↔ grant ∈ table.grants ∧ condition grant = true

theorem Selects.find? {selected : Shard} {table : GrantTable} {condition : Grant → Bool}
    (selects : Selects selected table condition) (key : GrantKey) :
    selected.find? key = (table.find? key).filter condition := by
  ext grant
  rw [Shard.find?_eq_some_iff selects.1, selects.2, Option.filter_eq_some_iff, find?_eq_some_iff]
  constructor
  · exact fun ⟨⟨member, satisfied⟩, keyed⟩ => ⟨⟨member, keyed⟩, satisfied⟩
  · exact fun ⟨⟨member, keyed⟩, satisfied⟩ => ⟨⟨member, satisfied⟩, keyed⟩

/-- Changing the selected grants one after the other changes each on its own. -/
theorem revises_foldl {selected : Shard} {table : GrantTable} {condition : Grant → Bool}
    (selects : Selects selected table condition) (step : GrantTable → Grant → GrantTable)
    (change : Grant → Option Grant)
    (find?_step : ∀ table grant key, (step table grant).find? key =
      if key = grant.key then change grant else table.find? key) :
    (selected.foldl step table).Revises table
      fun grant => if condition grant then change grant else some grant := by
  intro key
  rw [find?_foldl step Grant.key (fun grant _ => change grant) find?_step, filter_key_eq selects.1,
    selects.find?]
  cases table.find? key with
  | none => rfl
  | some grant => by_cases satisfied : condition grant = true <;> simp [satisfied, Option.filter]

end GrantTable

namespace Authority

variable {authority : Authority} {uid pid : Nat} {uri : Uri} {modes : Modes} {now : Timestamp}
  {grant : Grant} {key : GrantKey}

/-! ## The grants that a request selects -/

theorem mem_grantsOn : grant ∈ authority.grantsOn uid uri ↔
    grant ∈ authority.table.grants ∧ grant.grantee = uid ∧ grant.uri = uri := by
  rw [grantsOn, List.mem_append, Option.mem_toList, Option.mem_toList, GrantTable.find?_eq_some_iff,
    GrantTable.find?_eq_some_iff]
  simp only [Grant.key, GrantKey.mk.injEq]
  cases grant.beneath <;> simp

theorem grantsOn_distinct : Shard.Distinct (authority.grantsOn uid uri) := by
  rw [Shard.Distinct, grantsOn, List.pairwise_append]
  refine ⟨?_, ?_, ?_⟩
  · cases authority.table.find? ⟨uid, uri, false⟩ <;> simp
  · cases authority.table.find? ⟨uid, uri, true⟩ <;> simp
  · intro exact exactMember beneath beneathMember
    rw [Option.mem_toList] at exactMember beneathMember
    rw [GrantTable.key_of_find? exactMember, GrantTable.key_of_find? beneathMember]
    simp

theorem selects_grantsOn (condition : Grant → Bool) :
    GrantTable.Selects ((authority.grantsOn uid uri).filter condition) authority.table
      fun grant => grant.grantee = uid ∧ grant.uri = uri ∧ condition grant = true := by
  refine ⟨grantsOn_distinct.filter _, ?_⟩
  intro grant
  simp [mem_grantsOn, and_assoc]

/-! ## Making durable and evicting -/

/-- Whether a grant is made durable when a user takes access to a URI. -/
def isPromoted (uid : Nat) (uri : Uri) (modes : Modes) (grant : Grant) : Bool :=
  grant.grantee = uid ∧ grant.uri = uri ∧ grant.persistable.contains modes = true

theorem isPromoted_iff : isPromoted uid uri modes grant = true ↔
    grant.grantee = uid ∧ grant.uri = uri ∧ grant.persistable.contains modes = true :=
  decide_eq_true_iff

/-- What is left of a grant when some grants are evicted. -/
def afterEvicting (victims : List GrantKey) (grant : Grant) : Option Grant :=
  if grant.key ∈ victims then grant.evict.settled else some grant

/-- What is left of a grant when access of a user to a URI is released. -/
def afterReleasing (uid : Nat) (uri : Uri) (modes : Modes) (grant : Grant) : Option Grant :=
  if grant.grantee = uid ∧ grant.uri = uri ∧ grant.persisted.intersects modes = true then
    (grant.release modes).settled
  else some grant

theorem selects_promotable (authority : Authority) (uid : Nat) (uri : Uri) (modes : Modes) :
    GrantTable.Selects (authority.promotable uid uri modes) authority.table
      (isPromoted uid uri modes) :=
  selects_grantsOn _

theorem mem_promotable : grant ∈ authority.promotable uid uri modes ↔
    grant ∈ authority.table.grants ∧ isPromoted uid uri modes grant = true :=
  (selects_promotable authority uid uri modes).2 grant

theorem revises_promote (authority : Authority) (uid : Nat) (uri : Uri) (modes : Modes)
    (now : Timestamp) :
    (authority.promote (authority.promotable uid uri modes) modes now).table.Revises authority.table
      fun grant =>
        if isPromoted uid uri modes grant then some (grant.promote modes now) else some grant := by
  apply GrantTable.revises_foldl (selects_promotable authority uid uri modes)
    (fun table grant => table.put (grant.promote modes now))
    (fun grant => some (grant.promote modes now))
  intro table grant key
  exact GrantTable.find?_put

theorem find?_evict {table : GrantTable} {victim : GrantKey} : (evict table victim).find? key =
    if key = victim then (table.find? key).bind (fun grant => grant.evict.settled)
    else table.find? key := by
  simp only [evict]
  split
  · rename_i grant found
    have keyed : grant.evict.key = victim := by simpa using GrantTable.key_of_find? found
    rw [GrantTable.find?_settle, keyed]
    split
    · rename_i same
      rw [same, found, Option.bind_some]
    · rfl
  · rename_i absent
    split
    · rename_i same
      rw [same, absent, Option.bind_none]
    · rfl

theorem filter_eq_of_nodup {keys : List GrantKey} (nodup : keys.Nodup) (key : GrantKey) :
    keys.filter (fun other => key = other) = if key ∈ keys then [key] else [] := by
  have equal : keys.filter (fun other => key = other) = keys.filter (· == key) := by
    congr 1
    funext other
    simp [eq_comm, Bool.beq_eq_decide_eq]
  rw [equal, List.filter_beq, nodup.count]
  split <;> rfl

theorem revises_evict {table : GrantTable} {victims : List GrantKey} (nodup : victims.Nodup) :
    (victims.foldl evict table).Revises table (afterEvicting victims) := by
  intro key
  rw [GrantTable.find?_foldl evict id (fun _ found => found.bind fun grant => grant.evict.settled)
    (fun table victim key => find?_evict)]
  simp only [id, filter_eq_of_nodup nodup]
  cases found : table.find? key with
  | none => split <;> rfl
  | some grant =>
      rw [Option.bind_some, afterEvicting, GrantTable.key_of_find? found]
      split <;> rfl

theorem overLimit_nodup (authority : Authority) (uid : Nat) : (authority.overLimit uid).Nodup :=
  List.Sublist.nodup ((List.take_sublist _ _).map _) GrantTable.persisted_keys_nodup

/-- What is left of a grant when access is taken and the store can be written. -/
def afterTaking (uid : Nat) (uri : Uri) (modes : Modes) (now : Timestamp) (victims : List GrantKey)
    (grant : Grant) : Option Grant :=
  afterEvicting victims (if isPromoted uid uri modes grant then grant.promote modes now else grant)

/-- The authority on the way of making access durable, before anything is evicted. -/
def promoted (authority : Authority) (now : Timestamp) (uid : Nat) (uri : Uri) (modes : Modes) :
    Authority :=
  authority.promote (authority.promotable uid uri modes) modes now

/-- The keys of the grants that are evicted when access is taken. -/
def victims (authority : Authority) (now : Timestamp) (uid : Nat) (uri : Uri) (modes : Modes) :
    List GrantKey :=
  (authority.promoted now uid uri modes).overLimit uid

/-- The table after access was taken, if it can be saved. -/
def taken (authority : Authority) (now : Timestamp) (uid : Nat) (uri : Uri) (modes : Modes) :
    GrantTable :=
  (authority.victims now uid uri modes).foldl evict (authority.promoted now uid uri modes).table

theorem revises_taken : (authority.taken now uid uri modes).Revises authority.table
    (afterTaking uid uri modes now (authority.victims now uid uri modes)) := by
  have nodup := overLimit_nodup (authority.promoted now uid uri modes) uid
  refine ((revises_evict nodup).trans (revises_promote authority uid uri modes now)).congr ?_
  intro grant _
  simp only [afterTaking]
  split <;> rfl

/-! ## Saving and putting back -/

theorem find?_restore {table : GrantTable} {prior : Grant} : (restore table prior).find? key =
    if key = prior.key then some (((table.find? key).map (·.restore prior)).getD prior)
    else table.find? key := by
  simp only [restore]
  split
  · rename_i grant found
    have keyed : (grant.restore prior).key = prior.key := by
      simpa using GrantTable.key_of_find? found
    rw [GrantTable.find?_put, keyed]
    split
    · rename_i same
      rw [same, found, Option.map_some, Option.getD_some]
    · rfl
  · rename_i absent
    rw [GrantTable.find?_put]
    split
    · rename_i same
      rw [same, absent, Option.map_none, Option.getD_none]
    · rfl

/-- Putting back one list of copies after another. At each key both lists have one copy at most. -/
theorem find?_foldl_restore (table : GrantTable) {first second : Shard}
    (firstDistinct : first.Distinct) (secondDistinct : second.Distinct) (key : GrantKey) :
    ((first ++ second).foldl restore table).find? key =
      (second.find? key).toList.foldl
        (fun found prior => some ((found.map (·.restore prior)).getD prior))
        ((first.find? key).toList.foldl
          (fun found prior => some ((found.map (·.restore prior)).getD prior))
          (table.find? key)) := by
  rw [GrantTable.find?_foldl restore Grant.key
    (fun prior found => some ((found.map (·.restore prior)).getD prior))
    (fun _ _ _ => find?_restore), List.filter_append, List.foldl_append,
    GrantTable.filter_key_eq firstDistinct, GrantTable.filter_key_eq secondDistinct]

theorem find?_filterMap_find? (table : GrantTable) {keys : List GrantKey} (nodup : keys.Nodup)
    (key : GrantKey) :
    Shard.Distinct (keys.filterMap table.find?) ∧
      Shard.find? (keys.filterMap table.find?) key = if key ∈ keys then table.find? key
        else none := by
  have distinct : Shard.Distinct (keys.filterMap table.find?) := by
    refine List.Pairwise.filterMap _ ?_ nodup
    intro left right apart grant found other otherFound
    rwa [GrantTable.key_of_find? found, GrantTable.key_of_find? otherFound]
  refine ⟨distinct, ?_⟩
  ext grant
  rw [Shard.find?_eq_some_iff distinct, List.mem_filterMap]
  constructor
  · rintro ⟨⟨other, member, found⟩, keyed⟩
    rw [GrantTable.key_of_find? found] at keyed
    simpa [← keyed, member] using found
  · intro found
    split at found
    · rename_i member
      exact ⟨⟨key, member, found⟩, GrantTable.key_of_find? found⟩
    · cases found

/-- The table after access was taken and could not be saved. -/
def rolledBack (authority : Authority) (now : Timestamp) (uid : Nat) (uri : Uri) (modes : Modes) :
    GrantTable :=
  (authority.promotable uid uri modes ++
      (authority.victims now uid uri modes).filterMap
        (authority.promoted now uid uri modes).table.find?).foldl
    restore (authority.taken now uid uri modes)

/-- What a rollback leaves of a grant. The copy of a grant that was made durable and then evicted is
one of the durable grant, and is put back last. -/
def afterRollback (uid : Nat) (uri : Uri) (modes : Modes) (now : Timestamp)
    (victims : List GrantKey) (grant : Grant) : Grant :=
  if isPromoted uid uri modes grant ∧ grant.key ∈ victims then grant.promote modes now else grant

theorem revises_rolledBack : (authority.rolledBack now uid uri modes).Revises authority.table
    fun grant =>
      some (afterRollback uid uri modes now (authority.victims now uid uri modes) grant) := by
  intro key
  have promotes := selects_promotable authority uid uri modes
  have midway := revises_promote authority uid uri modes now key
  rcases find?_filterMap_find? (authority.promoted now uid uri modes).table
    (overLimit_nodup (authority.promoted now uid uri modes) uid) key with ⟨distinct, evicted⟩
  rw [rolledBack, victims, find?_foldl_restore _ promotes.1 distinct, evicted, promotes.find?,
    revises_taken key, ← victims, promoted, midway]
  cases found : authority.table.find? key with
  | none => simp
  | some grant =>
      have keyed := GrantTable.key_of_find? found
      have evicted := Grant.getD_restore_settled grant.restore_evict
      by_cases promotes : isPromoted uid uri modes grant = true <;>
        by_cases evicts : key ∈ authority.victims now uid uri modes <;>
        simp [afterTaking, afterEvicting, afterRollback, promotes, evicts, keyed, evicted,
          Option.filter]

theorem saveOrRestore_of_working {priors : List Grant} {event : Event}
    (working : authority.store.failing = false) :
    authority.saveOrRestore priors event = ⟨.ok (), authority.saved, [event]⟩ := by
  simp [saveOrRestore, save_eq, working]

theorem saveOrRestore_of_failing {priors : List Grant} {event : Event}
    (failing : authority.store.failing = true) : authority.saveOrRestore priors event =
      ⟨.error GrantStore.writeFault,
        { authority with table := priors.foldl restore authority.table }, []⟩ := by
  simp [saveOrRestore, save_eq, failing]

/-! ## Requests -/

/-- Taking access is refused, or it is saved, or it is rolled back. -/
theorem take_cases (authority : Authority) (now : Timestamp) (grantee : Identity) (uri : Uri)
    (modes : Modes) :
    (∃ error, authority.take now grantee uri modes = authority.refuse error ∧
        authority.promotable grantee.uid uri modes = []) ∨
      authority.promotable grantee.uid uri modes ≠ [] ∧
        (authority.store.failing = false ∧ authority.take now grantee uri modes =
            ⟨.ok (), saved { authority with table := authority.taken now grantee.uid uri modes },
              [.persisted uri grantee.uid modes]⟩ ∨
          authority.store.failing = true ∧ authority.take now grantee uri modes =
            ⟨.error GrantStore.writeFault,
              { authority with table := authority.rolledBack now grantee.uid uri modes }, []⟩) := by
  by_cases none : authority.promotable grantee.uid uri modes = []
  · left
    simp only [take]
    split
    · exact ⟨_, rfl, none⟩
    · refine ⟨.permissionDenied (.notPersistable modes uri grantee.uid), ?_, none⟩
      simp [none]
  · right
    have found : authority.grantsOn grantee.uid uri ≠ [] := by
      intro nothing
      apply none
      simp [promotable, nothing]
    have isEmpty : (authority.grantsOn grantee.uid uri).isEmpty = false := by simpa using found
    have isEmpty' : (authority.promotable grantee.uid uri modes).isEmpty = false := by
      simpa using none
    refine ⟨none, ?_⟩
    simp only [take, isEmpty, isEmpty', Bool.false_eq_true, if_false]
    cases failing : authority.store.failing with
    | false => exact .inl ⟨rfl, saveOrRestore_of_working failing⟩
    | true => exact .inr ⟨rfl, saveOrRestore_of_failing failing⟩

/-- The table after access was released, if it can be saved. -/
def released (authority : Authority) (uid : Nat) (uri : Uri) (modes : Modes) : GrantTable :=
  (authority.releasable uid uri modes).foldl (fun table grant => table.settle (grant.release modes))
    authority.table

/-- The table after access was released and could not be saved. -/
def unreleased (authority : Authority) (uid : Nat) (uri : Uri) (modes : Modes) : GrantTable :=
  (authority.releasable uid uri modes).foldl restore (authority.released uid uri modes)

theorem selects_releasable (authority : Authority) (uid : Nat) (uri : Uri) (modes : Modes) :
    GrantTable.Selects (authority.releasable uid uri modes) authority.table fun grant =>
      grant.grantee = uid ∧ grant.uri = uri ∧ grant.persisted.intersects modes = true :=
  selects_grantsOn _

theorem revises_released : (authority.released uid uri modes).Revises authority.table
    (afterReleasing uid uri modes) := by
  have revises := GrantTable.revises_foldl (selects_releasable authority uid uri modes)
    (fun table grant => table.settle (grant.release modes))
    (fun grant => (grant.release modes).settled)
    (fun _ _ _ => GrantTable.find?_settle)
  refine revises.congr ?_
  intro grant _
  simp [afterReleasing]

theorem revises_unreleased : (authority.unreleased uid uri modes).Revises authority.table some := by
  intro key
  have selects := selects_releasable authority uid uri modes
  have restored :=
    find?_foldl_restore (authority.released uid uri modes) selects.1 List.Pairwise.nil key
  rw [List.append_nil] at restored
  rw [unreleased, restored, selects.find?, revises_released key]
  cases authority.table.find? key with
  | none => rfl
  | some grant =>
      have released := Grant.getD_restore_settled (grant.restore_release modes)
      by_cases releases : grant.grantee = uid ∧ grant.uri = uri ∧
        grant.persisted.intersects modes = true <;>
        simp [afterReleasing, releases, released, Option.filter, Shard.find?]

/-- Releasing access is refused, or it is saved, or everything is put back. -/
theorem release_cases (authority : Authority) (grantee : Identity) (uri : Uri) (modes : Modes) :
    (∃ error, authority.release grantee uri modes = authority.refuse error ∧
        authority.releasable grantee.uid uri modes = []) ∨
      authority.releasable grantee.uid uri modes ≠ [] ∧
        (authority.store.failing = false ∧ authority.release grantee uri modes =
            ⟨.ok (), saved { authority with table := authority.released grantee.uid uri modes },
              [.released uri grantee.uid modes]⟩ ∨
          authority.store.failing = true ∧ authority.release grantee uri modes =
            ⟨.error GrantStore.writeFault,
              { authority with table := authority.unreleased grantee.uid uri modes }, []⟩) := by
  by_cases none : authority.releasable grantee.uid uri modes = []
  · left
    refine ⟨.notFound (.persistedGrant modes uri grantee.uid), ?_, none⟩
    simp [release, none]
  · right
    have isEmpty : (authority.releasable grantee.uid uri modes).isEmpty = false := by
      simpa using none
    refine ⟨none, ?_⟩
    simp only [release, isEmpty, Bool.false_eq_true, if_false]
    cases failing : authority.store.failing with
    | false => exact .inl ⟨rfl, saveOrRestore_of_working failing⟩
    | true => exact .inr ⟨rfl, saveOrRestore_of_failing failing⟩

theorem isBeneath_of_isRevoked {grantee : Option Nat}
    (revoked : isRevoked uri modes grantee grant = true) : grant.uri.isBeneath uri = true := by
  simp only [isRevoked, Bool.and_eq_true] at revoked
  exact revoked.1.1

/-- The table after a revocation, whether or not it can be saved. -/
def revoked (authority : Authority) (uri : Uri) (modes : Modes) (grantee : Option Nat) :
    GrantTable :=
  authority.table.revise uri (afterRevoking uri modes grantee) key_of_afterRevoking

theorem revises_revoked {grantee : Option Nat} :
    (authority.revoked uri modes grantee).Revises authority.table
      (afterRevoking uri modes grantee) := by
  intro key
  rw [revoked, GrantTable.find?_revise]
  split
  · rfl
  · rename_i elsewhere
    cases found : authority.table.find? key with
    | none => rfl
    | some grant =>
        have spared : isRevoked uri modes grantee grant = false := by
          rw [← Bool.not_eq_true]
          intro revoked
          apply elsewhere
          rw [← GrantTable.key_of_find? found]
          exact (GrantTable.index_eq_of_isBeneath (isBeneath_of_isRevoked revoked)).symm
        simp [afterRevoking, spared]

theorem mem_revocable {user : Option Nat} : grant ∈ authority.revocable uri modes user ↔
    grant ∈ authority.table.grants ∧ isRevoked uri modes user grant = true := by
  rw [revocable, List.mem_filter, GrantTable.mem_shard_iff]
  constructor
  · exact fun ⟨⟨member, _⟩, revoked⟩ => ⟨member, revoked⟩
  · exact fun ⟨member, revoked⟩ =>
      ⟨⟨member, GrantTable.index_eq_of_isBeneath (isBeneath_of_isRevoked revoked)⟩, revoked⟩

/-- A revocation that takes durable modes away is saved, if the store can be written. -/
theorem revoke_cases (authority : Authority) (uri : Uri) (modes : Modes) (grantee : Option Nat) :
    authority.revokesDurable uri modes grantee = true ∧ authority.store.failing = false ∧
        (authority.revoke uri modes grantee).authority =
          saved { authority with table := authority.revoked uri modes grantee } ∨
      (authority.revokesDurable uri modes grantee = false ∨ authority.store.failing = true) ∧
        (authority.revoke uri modes grantee).authority =
          { authority with table := authority.revoked uri modes grantee } := by
  simp only [revoke]
  split
  · rename_i durable
    rw [save_eq]
    split
    · rename_i failing
      exact .inr ⟨.inr failing, rfl⟩
    · rename_i working
      exact .inl ⟨durable, Bool.eq_false_iff.2 working, rfl⟩
  · rename_i transient
    exact .inr ⟨.inl (Bool.eq_false_iff.2 transient), rfl⟩

theorem revises_exit : (authority.exit pid).2.table.Revises authority.table (afterExit pid) := by
  intro key
  exact GrantTable.find?_reviseAll _ key_of_afterExit

/-- In which order grants are met is not seen in the grant of any key. -/
theorem revises_rearranged (order : KeyOrder) :
    (authority.rearranged order).table.Revises authority.table some := by
  intro key
  exact (GrantTable.find?_rearranged order).trans (GrantTable.Revises.refl authority.table key)

theorem foldl_const_some {α β : Type} (convert : α → β) (values : List α) (found : Option β) :
    values.foldl (fun _ value => some (convert value)) found =
      (values.getLast?.map convert).or found := by
  induction values generalizing found with
  | nil => rfl
  | cons value values ih =>
      rw [List.foldl_cons, ih, List.getLast?_cons]
      cases values.getLast? <;> rfl

/-- A reloaded authority has, for each key of which its store has a record, the grant of the last
such record. -/
theorem find?_load (place : Placement) (settings : PermissionSettings) (store : GrantStore)
    (key : GrantKey) :
    (load place settings store).table.find? key = (store.find? key).map .ofPersisted := by
  rw [load, GrantTable.find?_foldl (fun table kept => table.put (.ofPersisted kept))
    PersistedGrant.key (fun kept _ => some (.ofPersisted kept)) (fun _ _ _ => GrantTable.find?_put)]
  rw [new, GrantTable.find?_empty, foldl_const_some, Option.or_none, GrantStore.find?]

theorem exists_record_of_mem_load {place : Placement} {settings : PermissionSettings}
    {store : GrantStore} (member : grant ∈ (load place settings store).table.grants) :
    ∃ kept ∈ store.records, grant = .ofPersisted kept := by
  rw [GrantTable.mem_grants_iff, find?_load, Option.map_eq_some_iff] at member
  rcases member with ⟨kept, last, rfl⟩
  exact ⟨kept, (List.mem_filter.1 (List.mem_of_getLast? last)).1, rfl⟩

/-! ## Granting -/

theorem grantFault?_eq_none_iff {grantor : Identity} :
    authority.grantFault? grantor uri modes = none ↔ modes.isEmpty = false ∧
      uri.isContent = true ∧
      (∃ provider, authority.provider? (uri.authority.getD "") = some provider ∧
        (provider.grantsUris = true ∨ grantor.isPrivileged = true)) ∧
      authority.check grantor uri modes = true := by
  cases empty : modes.isEmpty with
  | true => simp [grantFault?, empty]
  | false =>
      cases content : uri.isContent with
      | false => simp [grantFault?, empty, content]
      | true =>
          cases found : authority.provider? (uri.authority.getD "") with
          | none => simp [grantFault?, empty, content, found]
          | some provider =>
              cases grants : provider.grantsUris <;> cases privileged : grantor.isPrivileged <;>
                cases held : authority.check grantor uri modes <;>
                simp [grantFault?, empty, content, found, grants, privileged, held]

variable {grantor grantee : Identity} {flags : GrantFlags}

def granted (authority : Authority) (now : Timestamp) (grantor : Identity) (uri : Uri)
    (flags : GrantFlags) (grantee : Identity) : Authority :=
  { authority with table := authority.table.put (authority.widened now grantor uri flags grantee) }

/-- Granting is refused, or the grant of the key gets the modes. -/
theorem grant_cases (authority : Authority) (now : Timestamp) (grantor : Identity) (uri : Uri)
    (flags : GrantFlags) (grantee : Identity) :
    (∃ error, authority.grantFault? grantor uri flags.modes = some error ∧
        authority.grant now grantor uri flags grantee = authority.refuse error) ∨
      authority.grantFault? grantor uri flags.modes = none ∧
        authority.grant now grantor uri flags grantee =
          ⟨.ok (authority.widened now grantor uri flags grantee),
            authority.granted now grantor uri flags grantee,
              [.granted uri grantee.uid flags.modes]⟩ := by
  simp only [grant]
  cases fault : authority.grantFault? grantor uri flags.modes with
  | none => exact .inr ⟨rfl, rfl⟩
  | some error => exact .inl ⟨error, rfl, rfl⟩

/-- What is widened is the grant of the key, or a new one. -/
theorem exists_prior (authority : Authority) (now : Timestamp) (grantor : Identity) (uri : Uri)
    (flags : GrantFlags) (grantee : Identity) :
    ∃ prior : Grant, authority.widened now grantor uri flags grantee =
        prior.widen grantor.uid grantee.pid flags.modes flags.isPersistable ∧
      prior.key = ⟨grantee.uid, uri, flags.isPrefix⟩ ∧
        (authority.table.find? ⟨grantee.uid, uri, flags.isPrefix⟩ = some prior ∨
          authority.table.find? ⟨grantee.uid, uri, flags.isPrefix⟩ = none ∧
            prior = .ofKey ⟨grantee.uid, uri, flags.isPrefix⟩ grantor.uid now) := by
  refine ⟨_, rfl, ?_⟩
  cases found : authority.table.find? ⟨grantee.uid, uri, flags.isPrefix⟩ with
  | none => exact ⟨rfl, .inr ⟨rfl, rfl⟩⟩
  | some grant => exact ⟨GrantTable.key_of_find? found, .inl rfl⟩

@[simp]
theorem key_widened : (authority.widened now grantor uri flags grantee).key =
    ⟨grantee.uid, uri, flags.isPrefix⟩ := by
  rcases authority.exists_prior now grantor uri flags grantee with ⟨prior, widened, keyed, _⟩
  rw [widened, Grant.key_widen, keyed]

end Authority

end IntentRouting
