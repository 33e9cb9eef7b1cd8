import IntentRouting.Proofs.Permission.Quota

/-!
# Taking and releasing

Releasing takes back what taking made durable, but a promise is used up by it: a grant that promised
modes does not promise them any more when they were made durable and were released. Everything else
of it is as before, as far as it was not durable at all before, and its transient modes can still be
used. So what was released cannot be taken again before it is granted anew, however long the process
of the user lives.

No other grant changes, with one exception. Taking can make two grants durable, the one for a URI
and the one for everything beneath it. If there is room for one of them only, the oldest grant of
the user is evicted, and releasing does not bring it back (`Authority.release_after_take`).
-/

namespace IntentRouting

/-- What is left of a grant when modes that it promised were made durable and were released. -/
def Grant.spend (grant : Grant) (modes : Modes) : Grant :=
  { grant with persistable := grant.persistable \ modes, persistedAt := none }

/-- If nothing of a grant was durable, releasing gives back what was made durable. -/
theorem Grant.release_promote {grant : Grant} {modes : Modes} {now : Timestamp}
    (transient : grant.persisted.isEmpty = true) :
    (grant.promote modes now).release modes = grant.spend modes := by
  have back : (grant.persisted ∪ modes) \ modes = grant.persisted := by
    ext bit
    have none := FlagSet.isEmpty_iff.1 transient bit
    simp [none]
  simp [release, promote, spend, back, transient]

namespace Authority

variable {authority : Authority} {now : Timestamp} {grantee : Identity} {uid : Nat} {uri : Uri}
  {modes : Modes} {grant : Grant} {key : GrantKey}

/-- Nothing of the grants of a user on a URI is durable. -/
def IsTransientOn (authority : Authority) (uid : Nat) (uri : Uri) : Prop :=
  ∀ grant ∈ authority.grantsOn uid uri, grant.persisted.isEmpty = true

instance (authority : Authority) (uid : Nat) (uri : Uri) :
    Decidable (authority.IsTransientOn uid uri) :=
  inferInstanceAs (Decidable (∀ grant ∈ authority.grantsOn uid uri, _))

/-! ## What is evicted on the way -/

theorem mem_keys_promotable_iff :
    key ∈ (authority.promotable uid uri modes).map Grant.key ↔
      ∃ grant ∈ authority.table.find? key, isPromoted uid uri modes grant = true := by
  rw [List.mem_map]
  constructor
  · rintro ⟨grant, promotable, rfl⟩
    rcases mem_promotable.1 promotable with ⟨member, promotes⟩
    exact ⟨grant, GrantTable.mem_grants_iff.1 member, promotes⟩
  · rintro ⟨grant, found, promotes⟩
    rcases GrantTable.find?_eq_some_iff.1 found with ⟨member, keyed⟩
    exact ⟨grant, mem_promotable.2 ⟨member, promotes⟩, keyed⟩

theorem isTransient_of_isPromoted (transient : authority.IsTransientOn uid uri)
    (found : authority.table.find? key = some grant)
    (promotes : isPromoted uid uri modes grant = true) : grant.persisted.isEmpty = true := by
  rcases isPromoted_iff.1 promotes with ⟨user, same, _⟩
  exact transient grant
    (mem_grantsOn.2 ⟨(GrantTable.find?_eq_some_iff.1 found).1, user, same⟩)

/-- If nothing was durable on the URI, each grant that is made durable adds a record. -/
theorem keys_promoted_perm (now : Timestamp) (transient : authority.IsTransientOn uid uri)
    (asked : modes.isEmpty = false) :
    (((authority.promoted now uid uri modes).persistedBy uid).map PersistedGrant.key).Perm
      ((authority.persistedBy uid).map PersistedGrant.key ++
        (authority.promotable uid uri modes).map Grant.key) := by
  have apart : ((authority.persistedBy uid).map PersistedGrant.key ++
      (authority.promotable uid uri modes).map Grant.key).Nodup := by
    rw [List.nodup_append]
    refine ⟨GrantTable.persisted_keys_nodup,
      List.pairwise_map.2 (selects_promotable authority uid uri modes).1, ?_⟩
    rintro key durable _ promotable rfl
    rcases mem_keys_persistedBy_iff.1 durable with ⟨_, grant, found, durable⟩
    rcases mem_keys_promotable_iff.1 promotable with ⟨other, otherFound, promotes⟩
    rw [found] at otherFound
    cases otherFound
    rw [isTransient_of_isPromoted transient found promotes] at durable
    cases durable
  refine (List.perm_ext_iff_of_nodup GrantTable.persisted_keys_nodup apart).2 ?_
  intro key
  refine mem_keys_persistedBy_iff.trans ?_
  have midway := revises_promote authority uid uri modes now key
  rw [List.mem_append, mem_keys_persistedBy_iff, mem_keys_promotable_iff, promoted, midway]
  cases found : authority.table.find? key with
  | none => simp
  | some grant =>
      by_cases promotes : isPromoted uid uri modes grant = true
      · have user : key.grantee = uid := by
          rw [← GrantTable.key_of_find? found]
          exact (isPromoted_iff.1 promotes).1
        have durable : (grant.promote modes now).persisted.isEmpty = false := by
          rcases FlagSet.isEmpty_eq_false_iff.1 asked with ⟨bit, taken⟩
          exact FlagSet.isEmpty_eq_false_iff.2 ⟨bit, FlagSet.mem_union.2 (.inr taken)⟩
        simp [promotes, user, durable]
      · simp [promotes]

theorem length_promotable_le (authority : Authority) (uid : Nat) (uri : Uri) (modes : Modes) :
    (authority.promotable uid uri modes).length ≤ 2 := by
  have bound : (authority.grantsOn uid uri).length ≤ 2 := by
    rw [grantsOn, List.length_append]
    cases authority.table.find? ⟨uid, uri, false⟩ <;>
      cases authority.table.find? ⟨uid, uri, true⟩ <;> simp
  exact Nat.le_trans (List.length_filter_le _ _) bound

/-- If there is room for one more durable grant, one grant at most is evicted, and it is if and only
if two are made durable and there is no more room. -/
theorem victims_of_room (now : Timestamp) (transient : authority.IsTransientOn uid uri)
    (asked : modes.isEmpty = false)
    (room : (authority.persistedBy uid).length < authority.limit) :
    (authority.victims now uid uri modes).length ≤ 1 ∧
      (authority.victims now uid uri modes ≠ [] ↔
        (authority.promotable uid uri modes).length = 2 ∧
          (authority.persistedBy uid).length + 1 = authority.limit) := by
  have two := authority.length_promotable_le uid uri modes
  have count := (keys_promoted_perm now transient asked).length_eq
  simp only [List.length_append, List.length_map] at count
  have evicted : (authority.victims now uid uri modes).length =
      (authority.persistedBy uid).length + (authority.promotable uid uri modes).length -
        authority.limit := by
    rw [victims_eq, List.length_map, List.length_take, excess, count]
    omega
  rw [← List.length_pos_iff]
  omega

/-! ## What releasing leaves -/

theorem table_release (released : (authority.release grantee uri modes).answer.isOk = true) :
    (authority.release grantee uri modes).authority.table =
      authority.released grantee.uid uri modes := by
  rcases authority.release_cases grantee uri modes with
    ⟨_, after, _⟩ | ⟨_, ⟨_, after⟩ | ⟨_, after⟩⟩
  · rw [after] at released
    cases released
  · rw [after]
    rfl
  · rw [after] at released
    cases released

/-- What is left of a grant when access was taken, which evicted some grants, and was released. -/
def afterTakingAndReleasing (uid : Nat) (uri : Uri) (modes : Modes) (victims : List GrantKey)
    (grant : Grant) : Option Grant :=
  if grant.key ∈ victims then grant.evict.settled
  else if isPromoted uid uri modes grant then some (grant.spend modes)
  else some grant

/-- What a grant promises that is not durable is transient. -/
theorem exists_transient (backed : grant.Backed) (promises : isPromoted uid uri modes grant = true)
    (transient : grant.persisted.isEmpty = true) (asked : modes.isEmpty = false) :
    ∃ bit, bit ∈ grant.transient := by
  rcases isPromoted_iff.1 promises with ⟨_, _, promised⟩
  rcases FlagSet.isEmpty_eq_false_iff.1 asked with ⟨bit, taken⟩
  rcases FlagSet.mem_union.1 (backed bit (FlagSet.contains_iff.1 promised bit taken)) with
    held | durable
  · exact ⟨bit, held⟩
  · exact absurd durable (FlagSet.isEmpty_iff.1 transient bit)

theorem intersects_of_isEmpty (transient : grant.persisted.isEmpty = true) :
    grant.persisted.intersects modes = false := by
  rw [Bool.eq_false_iff]
  intro meets
  rcases FlagSet.intersects_iff.1 meets with ⟨bit, _, durable⟩
  exact FlagSet.isEmpty_iff.1 transient bit durable

theorem afterReleasing_of_transient (transient : grant.persisted.isEmpty = true) :
    afterReleasing uid uri modes grant = some grant := by
  simp [afterReleasing, intersects_of_isEmpty transient]

theorem afterReleasing_promote (backed : grant.Backed)
    (promotes : isPromoted uid uri modes grant = true)
    (transient : grant.persisted.isEmpty = true) (asked : modes.isEmpty = false) :
    afterReleasing uid uri modes (grant.promote modes now) = some (grant.spend modes) := by
  rcases exists_transient backed promotes transient asked with ⟨bit, held⟩
  rcases isPromoted_iff.1 promotes with ⟨user, same, _⟩
  have meets : (grant.promote modes now).persisted.intersects modes = true := by
    rcases FlagSet.isEmpty_eq_false_iff.1 asked with ⟨bit, taken⟩
    exact FlagSet.intersects_iff.2 ⟨bit, taken, FlagSet.mem_union.2 (.inr taken)⟩
  rw [afterReleasing, if_pos ⟨user, same, meets⟩, Grant.release_promote transient]
  exact Grant.settled_eq_some_iff.2 ⟨Grant.isEmpty_eq_false_iff.2 ⟨bit, .inl held⟩, rfl⟩

theorem bind_afterReleasing {victims : List GrantKey} (backed : grant.Backed)
    (transient : grant.grantee = uid ∧ grant.uri = uri → grant.persisted.isEmpty = true)
    (asked : modes.isEmpty = false) :
    (afterTaking uid uri modes now victims grant).bind (afterReleasing uid uri modes) =
      afterTakingAndReleasing uid uri modes victims grant := by
  by_cases evicted : grant.key ∈ victims
  · have left : afterTaking uid uri modes now victims grant = grant.evict.settled := by
      rw [afterTaking]
      split <;> simp [afterEvicting, evicted]
    rw [left, afterTakingAndReleasing, if_pos evicted, Grant.settled]
    split
    · rfl
    -- an evicted grant has nothing durable that could be released
    · exact afterReleasing_of_transient FlagSet.isEmpty_empty
  · rw [afterTakingAndReleasing, if_neg evicted]
    by_cases promotes : isPromoted uid uri modes grant = true
    · rw [if_pos promotes, afterTaking, if_pos promotes, afterEvicting, Grant.key_promote,
        if_neg evicted]
      rcases isPromoted_iff.1 promotes with ⟨user, same, _⟩
      exact afterReleasing_promote backed promotes (transient ⟨user, same⟩) asked
    · rw [if_neg promotes, afterTaking, if_neg promotes, afterEvicting, if_neg evicted,
        Option.bind_some]
      by_cases place : grant.grantee = uid ∧ grant.uri = uri
      · exact afterReleasing_of_transient (transient place)
      · rw [afterReleasing, if_neg]
        rintro ⟨user, same, _⟩
        exact place ⟨user, same⟩

theorem revises_takingAndReleasing (backed : authority.Held Grant.Backed)
    (transient : authority.IsTransientOn grantee.uid uri) (asked : modes.isEmpty = false)
    (taken : (authority.take now grantee uri modes).answer.isOk = true)
    (released : ((authority.take now grantee uri modes).authority.release grantee uri
      modes).answer.isOk = true) :
    ((authority.take now grantee uri modes).authority.release grantee uri
        modes).authority.table.Revises authority.table
      (afterTakingAndReleasing grantee.uid uri modes
        (authority.victims now grantee.uid uri modes)) := by
  rw [table_release released]
  have first : (authority.take now grantee uri modes).authority.table.Revises authority.table
      (afterTaking grantee.uid uri modes now (authority.victims now grantee.uid uri modes)) := by
    rw [table_take taken]
    exact revises_taken
  refine (revises_released.trans first).congr ?_
  intro grant member
  apply bind_afterReleasing (backed grant member) ?_ asked
  rintro ⟨user, same⟩
  exact transient grant (mem_grantsOn.2 ⟨member, user, same⟩)

/-! ## Taking again -/

theorem notPromoted_afterTakingAndReleasing {victims : List GrantKey} {left : Grant}
    (asked : modes.isEmpty = false)
    (kept : afterTakingAndReleasing uid uri modes victims grant = some left) :
    isPromoted uid uri modes left = false := by
  rcases FlagSet.isEmpty_eq_false_iff.1 asked with ⟨bit, taken⟩
  rw [Bool.eq_false_iff]
  intro promotes
  have promised : bit ∈ left.persistable :=
    FlagSet.contains_iff.1 (isPromoted_iff.1 promotes).2.2 bit taken
  simp only [afterTakingAndReleasing] at kept
  split at kept
  · rcases Grant.settled_eq_some_iff.1 kept with ⟨_, rfl⟩
    exact FlagSet.not_mem_empty promised
  · split at kept
    · cases kept
      exact (FlagSet.mem_sdiff.1 promised).2 taken
    · rename_i spared
      cases kept
      exact spared promotes

theorem exists_afterTakingAndReleasing (victims : List GrantKey) (backed : grant.Backed)
    (promises : isPromoted uid uri modes grant = true)
    (transient : grant.persisted.isEmpty = true) (asked : modes.isEmpty = false) :
    ∃ left, afterTakingAndReleasing uid uri modes victims grant = some left ∧
      left.key = grant.key := by
  rcases exists_transient backed promises transient asked with ⟨bit, held⟩
  rw [afterTakingAndReleasing]
  split
  · have nonempty : grant.evict.isEmpty = false := Grant.isEmpty_eq_false_iff.2 ⟨bit, .inl held⟩
    exact ⟨_, Grant.settled_eq_some_iff.2 ⟨nonempty, rfl⟩, rfl⟩
  · exact ⟨_, rfl, rfl⟩

theorem take_refused (some : authority.grantsOn grantee.uid uri ≠ [])
    (none : authority.promotable grantee.uid uri modes = []) :
    (authority.take now grantee uri modes).answer =
      .error (.permissionDenied (.notPersistable modes uri grantee.uid)) := by
  simp [take, some, none, refuse]

/-- What was taken and released is as before, except for the promise, which is used up: the same
modes cannot be taken again. A grant is lost only where there was room for one of two. -/
theorem release_after_take (place : Placement) (settings : PermissionSettings) (store : GrantStore)
    (requests : List Request) (now : Timestamp) (grantee : Identity) (uri : Uri) (modes : Modes) :
    let before := (load place settings store).run requests
    let taken := before.take now grantee uri modes
    let released := taken.authority.release grantee uri modes
    let victims := before.victims now grantee.uid uri modes
    before.IsTransientOn grantee.uid uri →
    (before.persistedBy grantee.uid).length < before.limit →
    modes.isEmpty = false → taken.answer.isOk = true → released.answer.isOk = true →
      released.authority.table.Revises before.table
          (afterTakingAndReleasing grantee.uid uri modes victims) ∧
        victims.length ≤ 1 ∧
        (victims ≠ [] ↔ (before.promotable grantee.uid uri modes).length = 2 ∧
          (before.persistedBy grantee.uid).length + 1 = before.limit) ∧
        ∀ later, (released.authority.take later grantee uri modes).answer =
          .error (.permissionDenied (.notPersistable modes uri grantee.uid)) := by
  intro before taken released victims transient room asked took gave
  have backed : before.Held Grant.Backed := (backed_run_load place settings store requests).held
  have revises := revises_takingAndReleasing backed transient asked took gave
  rcases victims_of_room now transient asked room with ⟨few, evicted⟩
  refine ⟨revises, few, evicted, ?_⟩
  intro later
  apply take_refused
  · rcases List.exists_mem_of_ne_nil _ (isOk_take_iff.1 took).1 with ⟨grant, promotable⟩
    rcases mem_promotable.1 promotable with ⟨member, promises⟩
    have found := GrantTable.mem_grants_iff.1 member
    have spent := isTransient_of_isPromoted transient found promises
    rcases exists_afterTakingAndReleasing victims (backed grant member) promises spent asked with
      ⟨left, kept, keyed⟩
    have leftFound := revises left.key
    rw [keyed, found, Option.bind_some, kept, ← keyed] at leftFound
    rcases isPromoted_iff.1 promises with ⟨user, same, _⟩
    exact List.ne_nil_of_mem (mem_grantsOn.2 ⟨(GrantTable.find?_eq_some_iff.1 leftFound).1,
      (congrArg GrantKey.grantee keyed).trans user, (congrArg GrantKey.uri keyed).trans same⟩)
  · rw [List.eq_nil_iff_forall_not_mem]
    intro left promotable
    rcases mem_promotable.1 promotable with ⟨member, promises⟩
    rcases revises.mem_grants member with ⟨grant, _, kept⟩
    rw [notPromoted_afterTakingAndReleasing asked kept] at promises
    cases promises

/-- A viewer takes access to a note and releases it. -/
theorem released_note_is_spent :
    let before := (load (fun _ _ => 0) ⟨1, true, 512⟩ .empty).run
      [.register Notes.provider, Notes.sharing Notes.readToKeep]
    let taken := before.take (Notes.moment 2) Notes.viewer Notes.note Modes.read
    let released := taken.authority.release Notes.viewer Notes.note Modes.read
    before.IsTransientOn Notes.viewer.uid Notes.note ∧
      (before.persistedBy Notes.viewer.uid).length < before.limit ∧
      Modes.read.isEmpty = false ∧ taken.answer.isOk = true ∧ released.answer.isOk = true ∧
      released.authority.table.Revises before.table
        (afterTakingAndReleasing Notes.viewer.uid Notes.note Modes.read
          (before.victims (Notes.moment 2) Notes.viewer.uid Notes.note Modes.read)) ∧
      ∀ later, (released.authority.take later Notes.viewer Notes.note Modes.read).answer =
        .error (.permissionDenied (.notPersistable Modes.read Notes.note Notes.viewer.uid)) := by
  intro before taken released
  have transient : before.IsTransientOn Notes.viewer.uid Notes.note := by decide +kernel
  have room : (before.persistedBy Notes.viewer.uid).length < before.limit := by decide +kernel
  have asked : Modes.read.isEmpty = false := rfl
  have took : taken.answer.isOk = true := by decide +kernel
  have gave : released.answer.isOk = true := by decide +kernel
  have spent := release_after_take (fun _ _ => 0) ⟨1, true, 512⟩ .empty
    [.register Notes.provider, Notes.sharing Notes.readToKeep] (Notes.moment 2) Notes.viewer
    Notes.note Modes.read transient room asked took gave
  refine ⟨transient, room, asked, took, gave, ?_⟩
  dsimp only [before, taken, released]
  exact ⟨spent.1, spent.2.2.2⟩

/-- The note was promised to the viewer before access was taken and released, and is not afterwards.
-/
theorem released_note_cannot_be_taken_again :
    let before := (Notes.start 512).run [.register Notes.provider, Notes.sharing Notes.readToKeep]
    let taken := before.take (Notes.moment 2) Notes.viewer Notes.note Modes.read
    let released := taken.authority.release Notes.viewer Notes.note Modes.read
    let again := released.authority.take (Notes.moment 3) Notes.viewer Notes.note Modes.read
    let key : GrantKey := ⟨Notes.viewer.uid, Notes.note, false⟩
    before.IsTransientOn Notes.viewer.uid Notes.note ∧
      (before.persistedBy Notes.viewer.uid).length < before.limit ∧
      Modes.read.isEmpty = false ∧ taken.answer.isOk = true ∧ released.answer.isOk = true ∧
      released.authority.table.find? key ≠ before.table.find? key ∧
      again.answer.isOk = false := by
  decide +kernel

end Authority

end IntentRouting
