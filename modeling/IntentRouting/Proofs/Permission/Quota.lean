import IntentRouting.Proofs.Permission.Access
import IntentRouting.Proofs.Permission.Mirror
import IntentRouting.Proofs.Permission.Rollback
import Mathlib.Data.List.Pairwise

/-!
# The limit of durable access

A user can make only so many grants durable. When one more is made durable, the oldest ones become
transient again until the number fits. If the store can be written, this keeps the limit at every
moment of a history, and if moreover access is made durable at one moment after another, what stays
durable is the newest of what the user had and of what was asked for
(`Authority.keepsNewest_within_limit`).

The limit is kept by all other requests because none of them makes a grant durable that was not
durable before. That is a property of each grant over a fixed list of keys, so it is carried by
`Authority.Everywhere`; the store is included because reloading makes its records durable again. The
moments of records are traced back to requests in the same way.
-/

namespace IntentRouting

/-- The moment at which a request makes access durable. -/
def Request.takenAt? : Request → Option Timestamp
  | .take now _ _ _ => some now
  | _ => none

/-- Two requests do not make access durable at the same moment. -/
def Request.TakesApart (first second : Request) : Prop :=
  ∀ moment ∈ first.takenAt?, ∀ other ∈ second.takenAt?, moment.compare other ≠ .eq

instance : Std.Symm Request.TakesApart where
  symm _ _ apart moment taken other otherTaken same :=
    apart other otherTaken moment taken (Std.OrientedCmp.eq_comm.1 same)

/-- A note and its draft are shared with the viewer, who makes access to the note durable. -/
def Notes.keepingNote : List Request :=
  [.register provider, sharing readToKeep, .grant (moment 1) owner draft readToKeep viewer,
    .take (moment 2) viewer note Modes.read]

/-! ## What is kept of a grant -/

/-- What is kept of the grant, if it is durable, satisfies a condition. -/
def Grant.KeptAs (condition : GrantKey → Timestamp → Prop) (grant : Grant) : Prop :=
  grant.persisted.isEmpty = false →
    condition grant.key (grant.persistedAt.getD grant.grantedAt)

/-- The grant is not a durable one of a user, or its key is one of some keys. -/
def Grant.KeptAmong (uid : Nat) (keys : List GrantKey) : Grant → Prop :=
  KeptAs fun key _ => key.grantee = uid → key ∈ keys

namespace Grant

variable {condition : GrantKey → Timestamp → Prop} {grant other : Grant}

theorem KeptAs.narrow (holds : grant.KeptAs condition) (keyed : other.key = grant.key)
    (fewer : ∀ bit ∈ other.persisted, bit ∈ grant.persisted)
    (dated : other.persisted.isEmpty = false →
      other.persistedAt.getD other.grantedAt = grant.persistedAt.getD grant.grantedAt) :
    other.KeptAs condition := by
  intro durable
  rw [keyed, dated durable]
  rcases FlagSet.isEmpty_eq_false_iff.1 durable with ⟨bit, held⟩
  exact holds (FlagSet.isEmpty_eq_false_iff.2 ⟨bit, fewer bit held⟩)

theorem keptAs_of_transient (transient : grant.persisted.isEmpty = true) :
    grant.KeptAs condition := by
  intro durable
  rw [transient] at durable
  cases durable

theorem hereditary_keptAs (condition : GrantKey → Timestamp → Prop) :
    Hereditary (KeptAs condition) where
  without grant modes holds _ := by
    refine holds.narrow rfl ?_ fun _ => rfl
    intro bit held
    exact (FlagSet.mem_sdiff.1 held).1
  release grant modes holds _ := by
    refine holds.narrow rfl ?_ ?_
    · intro bit held
      exact (FlagSet.mem_sdiff.1 held).1
    · intro durable
      have durable : (grant.persisted \ modes).isEmpty = false := durable
      simp [release, durable]
  evict grant _ _ := keptAs_of_transient FlagSet.isEmpty_empty
  endSession grant holds _ := holds
  reload grant kept holds made := by
    rcases toPersisted?_eq_some_iff.1 made with ⟨durable, rfl⟩
    intro _
    exact holds durable

end Grant

namespace Authority

variable {authority : Authority} {condition : GrantKey → Timestamp → Prop} {now : Timestamp}
  {grantee : Identity} {uid : Nat} {uri : Uri} {modes : Modes} {kept : PersistedGrant}
  {key : GrantKey}

theorem widens_keptAs (authority : Authority) (request : Request) :
    authority.Widens (Grant.KeptAs condition) request := by
  intro current now delegation _ _ holds _
  rcases current.exists_prior now delegation.grantor delegation.uri delegation.flags
    delegation.grantee with ⟨prior, widened, _, found⟩
  rw [widened]
  rcases found with found | ⟨_, rfl⟩
  · exact holds prior (GrantTable.find?_eq_some_iff.1 found).1
  · exact Grant.keptAs_of_transient FlagSet.isEmpty_empty

theorem settings_perform (authority : Authority) (request : Request) :
    (authority.perform request).authority.settings = authority.settings := by
  cases request with
  | grant now grantor uri flags grantee =>
      rcases authority.grant_cases now grantor uri flags grantee with
        ⟨_, _, after⟩ | ⟨_, after⟩ <;>
        exact congrArg (fun outcome => outcome.authority.settings) after
  | dispatch now caller intent receiver =>
      let keeps (current : Authority) : Prop := current.settings = authority.settings
      change keeps (authority.dispatch now caller intent receiver).authority
      have unchanged : keeps authority := rfl
      simp only [dispatch]
      split
      · exact unchanged
      · exact grantEach_induction unchanged fun _ _ _ same _ _ => same
  | revoke uri modes user =>
      rcases authority.revoke_cases uri modes user with ⟨_, _, after⟩ | ⟨_, after⟩
      · rw [perform, Outcome.withoutAnswer, after]
        rfl
      · rw [perform, Outcome.withoutAnswer, after]
  | take now grantee uri modes =>
      rcases authority.take_cases now grantee uri modes with
        ⟨_, after, _⟩ | ⟨_, ⟨_, after⟩ | ⟨_, after⟩⟩ <;>
        exact congrArg (fun outcome => outcome.authority.settings) after
  | release grantee uri modes =>
      rcases authority.release_cases grantee uri modes with
        ⟨_, after, _⟩ | ⟨_, ⟨_, after⟩ | ⟨_, after⟩⟩ <;>
        exact congrArg (fun outcome => outcome.authority.settings) after
  | _ => rfl

theorem settings_run (authority : Authority) (requests : List Request) :
    (authority.run requests).settings = authority.settings := by
  induction requests generalizing authority with
  | nil => rfl
  | cons request requests ih => exact (ih _).trans (authority.settings_perform request)

/-! ## What is evicted -/

/-- The records that were dropped from the front of a list are those of which the keys are gone. -/
theorem mem_drop_iff {records : List PersistedGrant} {count : Nat}
    (nodup : (records.map PersistedGrant.key).Nodup) : kept ∈ records.drop count ↔
      kept ∈ records ∧ kept.key ∉ (records.take count).map PersistedGrant.key := by
  rw [← List.take_append_drop count records, List.map_append, List.nodup_append] at nodup
  constructor
  · intro left
    refine ⟨List.mem_of_mem_drop left, ?_⟩
    intro again
    exact nodup.2.2 kept.key again kept.key (List.mem_map_of_mem left) rfl
  · rintro ⟨member, spared⟩
    rw [← List.take_append_drop count records, List.mem_append] at member
    rcases member with gone | left
    · exact absurd (List.mem_map_of_mem gone) spared
    · exact left

theorem mem_persistedBy_iff : kept ∈ authority.persistedBy uid ↔
    authority.table.record? kept.key = some kept ∧ kept.grantee = uid := by
  rw [persistedBy, GrantTable.mem_persisted_iff_record? (GrantTable.isRecorded_grantee uid),
    decide_eq_true_eq]

theorem mem_keys_persistedBy_iff :
    key ∈ (authority.persistedBy uid).map PersistedGrant.key ↔
      key.grantee = uid ∧ ∃ grant ∈ authority.table.find? key, grant.persisted.isEmpty = false := by
  rw [List.mem_map]
  constructor
  · rintro ⟨kept, listed, rfl⟩
    rcases mem_persistedBy_iff.1 listed with ⟨record, user⟩
    rcases Option.bind_eq_some_iff.1 record with ⟨grant, found, made⟩
    exact ⟨user, grant, found, (Grant.toPersisted?_eq_some_iff.1 made).1⟩
  · rintro ⟨user, grant, found, durable⟩
    have made := Grant.toPersisted?_eq_some_iff.2 ⟨durable, rfl⟩
    have keyed := (PersistedGrant.key_of_toPersisted? made).trans (GrantTable.key_of_find? found)
    refine ⟨_, mem_persistedBy_iff.2 ⟨?_, ?_⟩, keyed⟩
    · rw [keyed, GrantTable.record?, found, Option.bind_some, made]
    · exact (congrArg GrantKey.grantee keyed).trans user

theorem record?_taken : (authority.taken now uid uri modes).record? key =
    if key ∈ authority.victims now uid uri modes then none
    else (authority.promoted now uid uri modes).table.record? key := by
  have evicts : (authority.taken now uid uri modes).find? key =
      ((authority.promoted now uid uri modes).table.find? key).bind
        (afterEvicting (authority.victims now uid uri modes)) :=
    revises_evict (overLimit_nodup (authority.promoted now uid uri modes) uid) key
  rw [GrantTable.record?, evicts, GrantTable.record?]
  cases found : (authority.promoted now uid uri modes).table.find? key with
  | none => split <;> rfl
  | some grant =>
      rw [Option.bind_some, afterEvicting, GrantTable.key_of_find? found]
      split
      · rw [Grant.settled_bind_toPersisted?]
        rfl
      · rfl

theorem isOk_take_iff : (authority.take now grantee uri modes).answer.isOk = true ↔
    authority.promotable grantee.uid uri modes ≠ [] ∧ authority.store.failing = false := by
  rcases authority.take_cases now grantee uri modes with
    ⟨_, after, none⟩ | ⟨some, ⟨working, after⟩ | ⟨failing, after⟩⟩
  · simp [after, refuse, none, Except.isOk, Except.toBool]
  · simp [after, some, working, Except.isOk, Except.toBool]
  · simp [after, failing, Except.isOk, Except.toBool]

theorem table_take (taken : (authority.take now grantee uri modes).answer.isOk = true) :
    (authority.take now grantee uri modes).authority.table =
      authority.taken now grantee.uid uri modes := by
  rcases authority.take_cases now grantee uri modes with
    ⟨_, after, _⟩ | ⟨_, ⟨_, after⟩ | ⟨_, after⟩⟩
  · rw [after] at taken
    cases taken
  · rw [after]
    rfl
  · rw [after] at taken
    cases taken

/-- What stays durable when access is taken are the newest records, as many as fit. -/
theorem persistedBy_take_perm
    (taken : (authority.take now grantee uri modes).answer.isOk = true) :
    ((authority.take now grantee uri modes).authority.persistedBy grantee.uid).Perm
      (((authority.promoted now grantee.uid uri modes).persistedBy grantee.uid).drop
        (authority.excess now grantee.uid uri modes)) := by
  have nodup : (((authority.promoted now grantee.uid uri modes).persistedBy grantee.uid).map
      PersistedGrant.key).Nodup := GrantTable.persisted_keys_nodup
  refine (List.perm_ext_iff_of_nodup (.of_map _ GrantTable.persisted_keys_nodup)
    ((List.drop_sublist _ _).nodup (.of_map _ nodup))).2 ?_
  intro kept
  refine mem_persistedBy_iff.trans ?_
  rw [mem_drop_iff nodup, ← victims_eq, mem_persistedBy_iff, table_take taken, record?_taken]
  split
  · rename_i evicted
    simp [evicted]
  · rename_i spared
    simp [spared]

/-- What a user has made durable, with what a request makes durable. -/
def candidates (authority : Authority) (now : Timestamp) (uid : Nat) (uri : Uri) (modes : Modes) :
    List PersistedGrant :=
  (authority.table.grants.filter fun grant => grant.grantee = uid).filterMap fun grant =>
    (if isPromoted uid uri modes grant then grant.promote modes now else grant).toPersisted?

theorem mem_candidates : kept ∈ authority.candidates now uid uri modes ↔
    ∃ grant ∈ authority.table.grants, grant.grantee = uid ∧
      (if isPromoted uid uri modes grant then grant.promote modes now else grant).toPersisted? =
        some kept := by
  simp [candidates, and_assoc]

theorem candidates_keys_nodup :
    ((authority.candidates now uid uri modes).map PersistedGrant.key).Nodup := by
  refine List.pairwise_map.2 (List.Pairwise.filterMap _ ?_
    (GrantTable.grants_distinct.filter fun grant => grant.grantee = uid))
  intro left right apart left' leftMade right' rightMade
  rw [PersistedGrant.key_of_toPersisted? leftMade, PersistedGrant.key_of_toPersisted? rightMade]
  split <;> split <;> exact apart

theorem candidates_perm : (authority.candidates now uid uri modes).Perm
    ((authority.promoted now uid uri modes).persistedBy uid) := by
  refine (List.perm_ext_iff_of_nodup (.of_map _ candidates_keys_nodup)
    (.of_map _ GrantTable.persisted_keys_nodup)).2 ?_
  intro kept
  refine Iff.trans ?_ mem_persistedBy_iff.symm
  have midway := revises_promote authority uid uri modes now kept.key
  rw [mem_candidates, GrantTable.record?, promoted, midway]
  constructor
  · rintro ⟨grant, member, user, made⟩
    have keyed : kept.key = grant.key := by
      rw [PersistedGrant.key_of_toPersisted? made]
      split <;> rfl
    refine ⟨?_, (congrArg GrantKey.grantee keyed).trans user⟩
    rw [keyed, GrantTable.mem_grants_iff.1 member, Option.bind_some]
    by_cases promotes : isPromoted uid uri modes grant = true <;> simpa [promotes] using made
  · rintro ⟨record, user⟩
    cases found : authority.table.find? kept.key with
    | none => simp [found] at record
    | some grant =>
        rcases GrantTable.find?_eq_some_iff.1 found with ⟨member, keyed⟩
        refine ⟨grant, member, (congrArg GrantKey.grantee keyed).trans user, ?_⟩
        rw [found, Option.bind_some] at record
        by_cases promotes : isPromoted uid uri modes grant = true <;> simpa [promotes] using record

/-- Each candidate stays durable or is one of the oldest, which are too many. -/
theorem mem_take_of_evicted (taken : (authority.take now grantee uri modes).answer.isOk = true)
    (candidate : kept ∈ authority.candidates now grantee.uid uri modes)
    (evicted : kept ∉ (authority.take now grantee uri modes).authority.persistedBy grantee.uid) :
    kept ∈ ((authority.promoted now grantee.uid uri modes).persistedBy grantee.uid).take
      (authority.excess now grantee.uid uri modes) := by
  have member := candidates_perm.mem_iff.1 candidate
  rw [← List.take_append_drop (authority.excess now grantee.uid uri modes)
    ((authority.promoted now grantee.uid uri modes).persistedBy grantee.uid),
    List.mem_append] at member
  rcases member with gone | left
  · exact gone
  · exact absurd ((persistedBy_take_perm taken).mem_iff.2 left) evicted

/-- If the durable grants of the user are older than the request, one grant of the request stays
durable: if one is evicted, what stays is of the request, and something always stays. -/
theorem exists_spared (newest : authority.IsNewest now uid uri modes)
    (some : authority.promotable uid uri modes ≠ []) :
    ∃ grant ∈ authority.promotable uid uri modes,
      grant.key ∉ authority.victims now uid uri modes := by
  rcases List.exists_mem_of_ne_nil _ some with ⟨grant, promotable⟩
  by_cases evicted : grant.key ∈ authority.victims now uid uri modes
  · let records := (authority.promoted now uid uri modes).persistedBy uid
    have nodup : (records.map PersistedGrant.key).Nodup := GrantTable.persisted_keys_nodup
    have nonempty : records.drop (authority.excess now uid uri modes) ≠ [] := by
      rw [victims_eq] at evicted
      rcases List.mem_map.1 evicted with ⟨gone, goneMember, _⟩
      have some := List.length_pos_of_mem (List.mem_of_mem_take goneMember)
      have room : 1 ≤ authority.limit := Nat.le_max_right _ _
      have count : authority.excess now uid uri modes = records.length - authority.limit := rfl
      change 0 < records.length at some
      rw [← List.length_pos_iff, List.length_drop]
      omega
    rcases List.exists_mem_of_ne_nil _ nonempty with ⟨other, left⟩
    rcases exists_promoted_of_evicted newest promotable evicted left with ⟨last, promotable, keyed⟩
    refine ⟨last, promotable, ?_⟩
    rw [keyed, victims_eq]
    exact ((mem_drop_iff nodup).1 left).2
  · exact ⟨grant, promotable, evicted⟩

/-! ## The limit in a history -/

/-- There are at most as many keys as the limit allows under which a user has a durable grant, or
under which the store has one of that user. -/
def WithinLimit (authority : Authority) : Prop :=
  ∀ uid, ∃ keys : List GrantKey, keys.length ≤ authority.limit ∧
    authority.Everywhere (Grant.KeptAmong uid keys)

theorem WithinLimit.length_persistedBy (within : authority.WithinLimit) (uid : Nat) :
    (authority.persistedBy uid).length ≤ authority.limit := by
  rcases within uid with ⟨keys, bound, holds⟩
  have among : (authority.persistedBy uid).map PersistedGrant.key ⊆ keys := by
    intro key listed
    rcases mem_keys_persistedBy_iff.1 listed with ⟨user, grant, found, durable⟩
    rcases GrantTable.find?_eq_some_iff.1 found with ⟨member, rfl⟩
    exact holds.held grant member durable user
  have count := GrantTable.persisted_keys_nodup.length_le_of_subset among
  rw [List.length_map] at count
  exact Nat.le_trans count bound

theorem length_persistedBy_take
    (taken : (authority.take now grantee uri modes).answer.isOk = true) :
    ((authority.take now grantee uri modes).authority.persistedBy grantee.uid).length =
      min (authority.candidates now grantee.uid uri modes).length authority.limit := by
  rw [(persistedBy_take_perm taken).length_eq, candidates_perm.length_eq, List.length_drop, excess]
  omega

/-- All durable grants of a user are under the keys of its records, and so are those that the store
has if they were just saved. -/
theorem everywhere_keys (records : authority.store.records = authority.table.persisted fun _ => true)
    (uid : Nat) :
    authority.Everywhere
      (Grant.KeptAmong uid ((authority.persistedBy uid).map PersistedGrant.key)) := by
  have held : authority.Held
      (Grant.KeptAmong uid ((authority.persistedBy uid).map PersistedGrant.key)) := by
    intro grant member durable user
    exact mem_keys_persistedBy_iff.2 ⟨user, grant, GrantTable.mem_grants_iff.1 member, durable⟩
  refine ⟨held, ?_⟩
  intro kept member
  rw [records] at member
  rcases GrantTable.mem_persisted_iff.1 member with ⟨grant, member, _, made⟩
  exact (Grant.hereditary_keptAs _).reload grant kept (held grant member) made

theorem limit_perform (authority : Authority) (request : Request) :
    (authority.perform request).authority.limit = authority.limit := by
  rw [limit, limit, settings_perform]

/-- A request that makes access of a user durable evicts what is too many, and no other request
makes a grant durable. -/
theorem WithinLimit.perform (within : authority.WithinLimit) (request : Request)
    (succeeds : authority.saves request = true → authority.store.failing = false) :
    (authority.perform request).authority.WithinLimit := by
  intro uid
  rcases within uid with ⟨keys, bound, holds⟩
  rw [limit_perform]
  have unchanged (promotes : authority.Promotes (Grant.KeptAmong uid keys) request) :
      ∃ keys : List GrantKey, keys.length ≤ authority.limit ∧
        (authority.perform request).authority.Everywhere (Grant.KeptAmong uid keys) :=
    ⟨keys, bound, holds.perform_of_promotes (Grant.hereditary_keptAs _) request promotes
      (authority.widens_keptAs request)⟩
  cases request with
  | take now grantee uri modes =>
      by_cases user : grantee.uid = uid
      · subst user
        rcases authority.take_cases now grantee uri modes with
          ⟨_, after, none⟩ | ⟨some, ⟨_, after⟩ | ⟨failing, _⟩⟩
        · apply unchanged
          intro grant promotable
          rw [none] at promotable
          cases promotable
        · have taken : (authority.take now grantee uri modes).answer.isOk = true := by
            rw [after]
            rfl
          refine ⟨_, ?_, everywhere_keys ?_ grantee.uid⟩
          · rw [List.length_map, Authority.perform, length_persistedBy_take taken]
            exact Nat.min_le_right _ _
          · rw [Authority.perform, after]
            rfl
        · simp [saves, some, failing] at succeeds
      · -- only grants of the grantee are made durable
        apply unchanged
        intro grant promotable _ _ same
        have promotes := isPromoted_iff.1 (mem_promotable.1 promotable).2
        exact absurd (promotes.1.symm.trans same) user
  | _ => exact unchanged trivial

theorem WithinLimit.run {requests : List Request} (within : authority.WithinLimit)
    (succeed : authority.SavesSucceed requests) : (authority.run requests).WithinLimit := by
  induction requests generalizing authority with
  | nil => exact within
  | cons request requests ih => exact ih (within.perform request succeed.1) succeed.2

theorem withinLimit_new (place : Placement) (settings : PermissionSettings) :
    (new place settings .empty).WithinLimit := by
  intro uid
  exact ⟨[], Nat.zero_le _, everywhere_new _ place settings⟩

/-! ## The moments of records -/

/-- In a history, access to the URI of a key was made durable at a moment. -/
def TakenIn (requests : List Request) (key : GrantKey) (moment : Timestamp) : Prop :=
  ∃ grantee modes, .take moment grantee key.uri modes ∈ requests

/-- Each record has the moment of a request. -/
theorem keptAs_run (place : Placement) (settings : PermissionSettings) (requests : List Request) :
    ((new place settings .empty).run requests).Everywhere (Grant.KeptAs (TakenIn requests)) := by
  induction requests using List.reverseRecOn with
  | nil => exact everywhere_new _ place settings
  | append_singleton requests request ih =>
      rw [run_concat]
      have earlier : ((new place settings .empty).run requests).Everywhere
          (Grant.KeptAs (TakenIn (requests ++ [request]))) := by
        refine ih.mono ?_
        intro grant kept durable
        rcases kept durable with ⟨grantee, modes, member⟩
        exact ⟨grantee, modes, List.mem_append_left _ member⟩
      apply earlier.perform_of_promotes (Grant.hereditary_keptAs _) request ?_
        (widens_keptAs _ request)
      cases request with
      | take now grantee uri modes =>
          intro grant promotable _ _
          have same : (grant.promote modes now).key.uri = uri :=
            (isPromoted_iff.1 (mem_promotable.1 promotable).2).2.1
          refine ⟨grantee, modes, ?_⟩
          rw [same]
          exact List.mem_append_right _ (.head _)
      | _ => trivial

/-- In a history, access is made durable at one moment after another. -/
def ClockAdvances (requests : List Request) : Prop :=
  (requests.filterMap Request.takenAt?).Pairwise fun earlier later => earlier.compare later = .lt

instance (requests : List Request) : Decidable (ClockAdvances requests) :=
  inferInstanceAs (Decidable (List.Pairwise _ _))

variable {requests : List Request}

theorem ClockAdvances.of_prefix {earlier : List Request} (clock : ClockAdvances requests)
    (leading : earlier <+: requests) : ClockAdvances earlier :=
  List.Pairwise.sublist (leading.sublist.filterMap _) clock

theorem ClockAdvances.eq_of_takenAt? (clock : ClockAdvances requests) {first second : Request}
    (firstMember : first ∈ requests) (secondMember : second ∈ requests) {moment other : Timestamp}
    (firstTaken : first.takenAt? = some moment) (secondTaken : second.takenAt? = some other)
    (same : moment.compare other = .eq) : first = second := by
  rw [ClockAdvances, List.pairwise_filterMap] at clock
  have apart : requests.Pairwise Request.TakesApart := by
    refine clock.imp ?_
    intro earlier later advances moment taken other otherTaken same
    rw [advances moment taken other otherTaken] at same
    cases same
  by_contra different
  exact apart.forall firstMember secondMember different moment firstTaken other secondTaken same

theorem ClockAdvances.lt_of_concat (clock : ClockAdvances (requests ++ [.take now grantee uri modes]))
    {moment : Timestamp} {key : GrantKey} (earlier : TakenIn requests key moment) :
    moment.compare now = .lt := by
  rcases earlier with ⟨taker, taken, member⟩
  rw [ClockAdvances, List.filterMap_append, List.pairwise_append] at clock
  refine clock.2.2 moment (List.mem_filterMap.2 ⟨_, member, rfl⟩) now ?_
  exact List.mem_filterMap.2 ⟨_, .head _, rfl⟩

/-- The durable grants of a history are older than a request that comes after it. -/
theorem isNewest_run (place : Placement) (settings : PermissionSettings)
    (clock : ClockAdvances (requests ++ [.take now grantee uri modes])) :
    ((new place settings .empty).run requests).IsNewest now grantee.uid uri modes := by
  intro grant member kept made _ _
  rcases Grant.toPersisted?_eq_some_iff.1 made with ⟨durable, rfl⟩
  exact clock.lt_of_concat ((keptAs_run place settings requests).held grant member durable)

/-! ## The newest access is kept -/

/-- Whether a record is older than another, or comes first by URI where the moment is the same. -/
def IsOlder (left right : PersistedGrant) : Prop :=
  (left.persistedAt.compare right.persistedAt).then (left.uri.compare right.uri) = .lt

/-- After a user has made access durable, the newest of what it had and of what was asked for is
durable, as much as a limit allows, and the rest is transient again. -/
structure KeepsNewest (limit : Nat) (before after : Authority) (now : Timestamp) (uid : Nat)
    (uri : Uri) (modes : Modes) : Prop where
  kept : ∀ record ∈ after.persistedBy uid, record ∈ before.candidates now uid uri modes
  count : (after.persistedBy uid).length =
    min (before.candidates now uid uri modes).length limit
  /-- Two grants of one URI that were made durable together can be told apart either way. -/
  newest : ∀ old ∈ before.candidates now uid uri modes, old ∉ after.persistedBy uid →
    ∀ record ∈ after.persistedBy uid, IsOlder old record ∨
      old.uri = record.uri ∧ old.persistedAt = record.persistedAt
  taken : ∃ grant ∈ after.table.grants, grant.grantee = uid ∧ grant.uri = uri ∧
    grant.persisted.contains modes = true
  evicted : ∀ old ∈ before.candidates now uid uri modes, old ∉ after.persistedBy uid →
    after.table.modesAt Grant.transient old.key = before.table.modesAt Grant.transient old.key ∧
      after.table.modesAt Grant.persistable old.key = .empty ∧
      after.table.modesAt Grant.persisted old.key = .empty
  others : ∀ key : GrantKey, key.grantee ≠ uid → after.table.find? key = before.table.find? key

theorem find?_take (taken : (authority.take now grantee uri modes).answer.isOk = true)
    (key : GrantKey) : (authority.take now grantee uri modes).authority.table.find? key =
      (authority.table.find? key).bind (afterTaking grantee.uid uri modes now
        (authority.victims now grantee.uid uri modes)) := by
  rw [table_take taken]
  exact revises_taken key

theorem grantee_of_mem_victims {key : GrantKey}
    (evicted : key ∈ authority.victims now uid uri modes) : key.grantee = uid := by
  rw [victims_eq] at evicted
  rcases List.mem_map.1 evicted with ⟨kept, gone, rfl⟩
  exact (mem_persistedBy_iff.1 (List.mem_of_mem_take gone)).2

theorem find?_take_of_ne (taken : (authority.take now grantee uri modes).answer.isOk = true)
    {key : GrantKey} (other : key.grantee ≠ grantee.uid) :
    (authority.take now grantee uri modes).authority.table.find? key =
      authority.table.find? key := by
  rw [find?_take taken]
  cases found : authority.table.find? key with
  | none => rfl
  | some grant =>
      have keyed := GrantTable.key_of_find? found
      have user : grant.grantee ≠ grantee.uid := by
        rw [← keyed] at other
        exact other
      have spared : key ∉ authority.victims now grantee.uid uri modes :=
        fun evicted => other (grantee_of_mem_victims evicted)
      simp [afterTaking, afterEvicting, isPromoted, user, keyed, spared]

theorem modesAt_take_of_evicted
    (taken : (authority.take now grantee uri modes).answer.isOk = true) {key : GrantKey}
    (evicted : key ∈ authority.victims now grantee.uid uri modes) :
    let after := (authority.take now grantee uri modes).authority
    after.table.modesAt Grant.transient key = authority.table.modesAt Grant.transient key ∧
      after.table.modesAt Grant.persistable key = .empty ∧
      after.table.modesAt Grant.persisted key = .empty := by
  have found : ∀ grant ∈ authority.table.find? key,
      (authority.take now grantee uri modes).authority.table.find? key = grant.evict.settled := by
    intro grant found
    rw [find?_take taken, found, Option.bind_some, afterTaking]
    have keyed := GrantTable.key_of_find? found
    split <;> simp [afterEvicting, keyed, evicted]
  simp only [GrantTable.modesAt]
  cases before : authority.table.find? key with
  | none =>
      rw [find?_take taken, before]
      exact ⟨rfl, rfl, rfl⟩
  | some grant =>
      rw [found grant before, Grant.settled]
      split
      · rename_i empty
        have none : grant.transient = .empty := by
          ext bit
          refine ⟨fun held => ?_, fun held => absurd held FlagSet.not_mem_empty⟩
          have nonempty : grant.evict.isEmpty = false :=
            Grant.isEmpty_eq_false_iff.2 ⟨bit, .inl held⟩
          rw [nonempty] at empty
          cases empty
        exact ⟨none.symm, rfl, rfl⟩
      · exact ⟨rfl, rfl, rfl⟩

/-- Taking access keeps the newest, if the durable grants of the user are older and were made
durable at different moments. -/
theorem keepsNewest_take (newest : authority.IsNewest now grantee.uid uri modes)
    (taken : (authority.take now grantee uri modes).answer.isOk = true)
    (apart : ∀ old ∈ authority.candidates now grantee.uid uri modes,
      ∀ record ∈ authority.candidates now grantee.uid uri modes,
        old.persistedAt.compare record.persistedAt = .eq →
          old.uri = record.uri ∧ old.persistedAt = record.persistedAt) :
    KeepsNewest authority.limit authority (authority.take now grantee uri modes).authority now
      grantee.uid uri modes := by
  have kept : ∀ record ∈ (authority.take now grantee uri modes).authority.persistedBy grantee.uid,
      record ∈ authority.candidates now grantee.uid uri modes := by
    intro record durable
    exact candidates_perm.mem_iff.2
      (List.mem_of_mem_drop ((persistedBy_take_perm taken).mem_iff.1 durable))
  refine ⟨kept, length_persistedBy_take taken, ?_, ?_, ?_, fun key => find?_take_of_ne taken⟩
  · intro old candidate gone record durable
    have before := precedes_of_excess (mem_take_of_evicted taken candidate gone)
      ((persistedBy_take_perm taken).mem_iff.1 durable)
    rw [PersistedGrant.precedes, PersistedGrant.compare] at before
    cases moments : old.persistedAt.compare record.persistedAt with
    | lt =>
        left
        rw [IsOlder, moments]
        rfl
    | eq => exact .inr (apart old candidate record (kept record durable) moments)
    | gt =>
        rw [moments] at before
        cases before
  · rcases exists_spared newest (isOk_take_iff.1 taken).1 with ⟨grant, promotable, spared⟩
    rcases mem_promotable.1 promotable with ⟨member, promotes⟩
    have found : (authority.take now grantee uri modes).authority.table.find? grant.key =
        some (grant.promote modes now) := by
      rw [find?_take taken, GrantTable.mem_grants_iff.1 member, Option.bind_some, afterTaking,
        if_pos promotes, afterEvicting, Grant.key_promote, if_neg spared]
    rcases isPromoted_iff.1 promotes with ⟨user, same, _⟩
    refine ⟨_, (GrantTable.find?_eq_some_iff.1 found).1, user, same, ?_⟩
    rw [FlagSet.contains_iff]
    intro bit asked
    exact FlagSet.mem_union.2 (.inr asked)
  · intro old candidate gone
    apply modesAt_take_of_evicted taken
    rw [victims_eq]
    exact List.mem_map_of_mem (mem_take_of_evicted taken candidate gone)

theorem takenIn_of_mem_candidates (place : Placement) (settings : PermissionSettings)
    (candidate : kept ∈
      ((new place settings .empty).run requests).candidates now grantee.uid uri modes) :
    TakenIn (requests ++ [.take now grantee uri modes]) kept.key kept.persistedAt := by
  rcases mem_candidates.1 candidate with ⟨grant, member, user, made⟩
  split at made
  · rename_i promotes
    rcases Grant.toPersisted?_eq_some_iff.1 made with ⟨_, rfl⟩
    refine ⟨grantee, modes, ?_⟩
    rw [← (isPromoted_iff.1 promotes).2.1]
    exact List.mem_append_right _ (.head _)
  · rcases Grant.toPersisted?_eq_some_iff.1 made with ⟨durable, rfl⟩
    rcases (keptAs_run place settings requests).held grant member durable with
      ⟨taker, taken, earlier⟩
    exact ⟨taker, taken, List.mem_append_left _ earlier⟩

/-- In a history in which the store can be written, every user has at most as many durable grants as
the limit allows, and at least one is always allowed. If access is made durable at one moment after
another, it is the newest that stays durable, at least one grant of those that were asked for among
it; what is evicted keeps its transient modes alone, and the grants of others stay as they are. -/
theorem keepsNewest_within_limit (place : Placement) (settings : PermissionSettings)
    {requests : List Request} (succeed : (new place settings .empty).SavesSucceed requests)
    (clock : ClockAdvances requests) :
    let start := new place settings .empty
    (∀ earlier, earlier <+: requests → ∀ uid,
        ((start.run earlier).persistedBy uid).length ≤ max settings.maxPersisted 1) ∧
      ∀ earlier now grantee uri modes,
        earlier ++ [.take now grantee uri modes] <+: requests →
        let before := start.run earlier
        let outcome := before.take now grantee uri modes
        outcome.answer.isOk = true →
          KeepsNewest (max settings.maxPersisted 1) before outcome.authority now grantee.uid uri
            modes := by
  intro start
  have limit : ∀ earlier, (start.run earlier).limit = max settings.maxPersisted 1 := by
    intro earlier
    rw [Authority.limit, settings_run]
    rfl
  constructor
  · rintro earlier ⟨later, rfl⟩ uid
    have within := (withinLimit_new place settings).run (savesSucceed_append.1 succeed).1
    rw [← limit earlier]
    exact within.length_persistedBy uid
  · intro earlier now grantee uri modes leading before outcome taken
    have clock := clock.of_prefix leading
    rw [← limit earlier]
    refine keepsNewest_take (isNewest_run place settings clock) taken ?_
    intro old oldCandidate record candidate same
    rcases takenIn_of_mem_candidates place settings oldCandidate with ⟨_, _, oldTaken⟩
    rcases takenIn_of_mem_candidates place settings candidate with ⟨_, _, taken⟩
    have equal := clock.eq_of_takenAt? oldTaken taken rfl rfl same
    simp only [Request.take.injEq] at equal
    exact ⟨equal.2.2.1, equal.1⟩

/-- A viewer who can make one grant durable makes access to a note durable and then access to its
draft, so one of the two is evicted. -/
theorem keeping_draft_evicts_note :
    let start := Notes.start 1
    let before := start.run Notes.keepingNote
    let after := (before.take (Notes.moment 3) Notes.viewer Notes.draft Modes.read).authority
    let requests := Notes.keepingNote ++ [.take (Notes.moment 3) Notes.viewer Notes.draft Modes.read]
    start.SavesSucceed requests ∧ ClockAdvances requests ∧
      (before.persistedBy Notes.viewer.uid).map PersistedGrant.uri = [Notes.note] ∧
      (before.candidates (Notes.moment 3) Notes.viewer.uid Notes.draft Modes.read).map
        PersistedGrant.uri = [Notes.note, Notes.draft] ∧
      (∀ earlier, earlier <+: requests → ∀ uid, ((start.run earlier).persistedBy uid).length ≤ 1) ∧
      KeepsNewest 1 before after (Notes.moment 3) Notes.viewer.uid Notes.draft Modes.read := by
  intro start before after requests
  have succeed : start.SavesSucceed requests := by decide +kernel
  have clock : ClockAdvances requests := by decide +kernel
  rcases keepsNewest_within_limit _ _ succeed clock with ⟨within, newest⟩
  have taken : (before.take (Notes.moment 3) Notes.viewer Notes.draft Modes.read).answer.isOk =
      true :=
    isOk_take_iff.2 ⟨by decide +kernel, by decide +kernel⟩
  refine ⟨succeed, clock, by decide +kernel, by decide +kernel, within, ?_⟩
  exact newest Notes.keepingNote _ _ _ _ (List.prefix_refl _) taken

end Authority

end IntentRouting
