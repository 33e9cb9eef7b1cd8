import IntentRouting.Proofs.Permission.Access
import IntentRouting.Proofs.Permission.Revision
import Mathlib.Data.List.Nodup

/-!
# Requests that fail

A request to make access durable that is refused changes nothing. If the store cannot be written,
what was changed on the way is put back from copies: those of the grants that were made durable,
taken before, and those of the grants that were evicted, taken before their eviction but after the
first change. For a grant that was made durable and evicted in the same request the second copy is
the one that lasts, so that grant stays durable (`Authority.find?_take_of_error`). The authority is
the same as before exactly if there is no such grant, or if making it durable changes nothing
(`Authority.take_error_unchanged_iff`).
-/

namespace IntentRouting

namespace Authority

variable {authority : Authority} {now : Timestamp} {grantee : Identity} {uri : Uri} {modes : Modes}
  {error : Error} {grant : Grant} {key : GrantKey}

/-- What a request that fails leaves of the grant of each key. -/
theorem find?_take_of_error (failed : (authority.take now grantee uri modes).answer = .error error)
    (key : GrantKey) :
    (authority.take now grantee uri modes).authority.table.find? key =
      (authority.table.find? key).map
        (afterRollback grantee.uid uri modes now
          (authority.victims now grantee.uid uri modes)) := by
  rcases authority.take_cases now grantee uri modes with
    ⟨_, after, nothing⟩ | ⟨_, ⟨_, after⟩ | ⟨_, after⟩⟩
  · rw [after, refuse]
    cases found : authority.table.find? key with
    | none => rfl
    | some grant =>
        have spared : ¬ (isPromoted grantee.uid uri modes grant = true ∧
            grant.key ∈ authority.victims now grantee.uid uri modes) := by
          rintro ⟨promoted, _⟩
          have member := mem_promotable.2 ⟨(GrantTable.find?_eq_some_iff.1 found).1, promoted⟩
          rw [nothing] at member
          cases member
        rw [Option.map_some, afterRollback, if_neg spared]
  · rw [after] at failed
    cases failed
  · rw [after, Option.map_eq_bind]
    exact revises_rolledBack key

/-- A request that fails changes nothing but grants, and announces nothing. -/
theorem take_frame_of_error
    (failed : (authority.take now grantee uri modes).answer = .error error) :
    (authority.take now grantee uri modes).authority.settings = authority.settings ∧
      (authority.take now grantee uri modes).authority.providers = authority.providers ∧
      (authority.take now grantee uri modes).authority.store = authority.store ∧
      (authority.take now grantee uri modes).events = [] := by
  rcases authority.take_cases now grantee uri modes with
    ⟨_, after, _⟩ | ⟨_, ⟨_, after⟩ | ⟨_, after⟩⟩
  · rw [after]
    exact ⟨rfl, rfl, rfl, rfl⟩
  · rw [after] at failed
    cases failed
  · rw [after]
    exact ⟨rfl, rfl, rfl, rfl⟩

/-- A request that fails changes no grant, if and only if it evicts none that it made durable,
unless making that durable changes nothing. The store is the same in any case, and nothing is
announced. -/
theorem take_error_unchanged_iff
    (failed : (authority.take now grantee uri modes).answer = .error error) :
    ((∀ key, (authority.take now grantee uri modes).authority.table.find? key =
          authority.table.find? key) ↔
        ∀ grant ∈ authority.promotable grantee.uid uri modes,
          grant.key ∈ authority.victims now grantee.uid uri modes →
            grant.promote modes now = grant) ∧
      (authority.take now grantee uri modes).authority.settings = authority.settings ∧
      (authority.take now grantee uri modes).authority.providers = authority.providers ∧
      (authority.take now grantee uri modes).authority.store = authority.store ∧
      (authority.take now grantee uri modes).events = [] := by
  refine ⟨?_, take_frame_of_error failed⟩
  constructor
  · intro unchanged grant promoted evicted
    rcases mem_promotable.1 promoted with ⟨member, promotes⟩
    have same := unchanged grant.key
    rw [find?_take_of_error failed, GrantTable.mem_grants_iff.1 member, Option.map_some,
      Option.some.injEq, afterRollback, if_pos ⟨promotes, evicted⟩] at same
    exact same
  · intro harmless key
    rw [find?_take_of_error failed]
    cases found : authority.table.find? key with
    | none => rfl
    | some grant =>
        rw [Option.map_some, afterRollback]
        split
        · rename_i both
          rw [harmless grant
            (mem_promotable.2 ⟨(GrantTable.find?_eq_some_iff.1 found).1, both.1⟩) both.2]
        · rfl

/-- A viewer with one grant on a note cannot make it durable while the store cannot be written, and
keeps it as it was. -/
theorem failed_take_of_note_unchanged :
    let before := (Notes.start 1).run [.register Notes.provider, Notes.sharing Notes.readToKeep,
      .storeFails true]
    let outcome := before.take (Notes.moment 2) Notes.viewer Notes.note Modes.read
    outcome.answer = .error GrantStore.writeFault ∧
      (∀ key, outcome.authority.table.find? key = before.table.find? key) ∧
      outcome.authority.store = before.store ∧ outcome.events = [] := by
  intro before outcome
  have failed : outcome.answer = .error GrantStore.writeFault := rfl
  rcases take_error_unchanged_iff failed with ⟨unchanged, _, _, store, events⟩
  exact ⟨failed, unchanged.2 (by decide +kernel), store, events⟩

/-- A user that can make one grant durable has two on a note, for the note and for everything
beneath it. A request that fails leaves one of them durable, which none was before, and it stays
when the process of the user has ended. -/
theorem failed_take_keeps_access :
    let before := (Notes.start 1).run [.register Notes.provider, Notes.sharing Notes.readToKeep,
      Notes.sharing (Notes.readToKeep ∪ GrantFlags.beneath), .storeFails true]
    let outcome := before.take (Notes.moment 2) Notes.viewer Notes.note Modes.read
    outcome.answer.isOk = false ∧
      (before.table.grants.all fun grant => grant.persisted.isEmpty) = true ∧
      (outcome.authority.table.find? ⟨Notes.viewer.uid, Notes.note, false⟩).any (0 ∈ ·.persisted) =
        true ∧
      (before.exit Notes.viewer.pid).2.check Notes.viewer Notes.note Modes.read = false ∧
      (outcome.authority.exit Notes.viewer.pid).2.check Notes.viewer Notes.note Modes.read =
        true := by
  intro before outcome
  let key : GrantKey := ⟨Notes.viewer.uid, Notes.note, false⟩
  let promoted := before.promoted (Notes.moment 2) Notes.viewer.uid Notes.note Modes.read
  have failed : outcome.answer = .error GrantStore.writeFault := rfl
  have ordered : ((promoted.table.grants.filter fun grant =>
      grant.grantee = Notes.viewer.uid).filterMap Grant.toPersisted?).Pairwise
        fun left right => left.precedes right = true := by
    decide +kernel
  have evicted : key ∈ before.victims (Notes.moment 2) Notes.viewer.uid Notes.note Modes.read := by
    rw [victims, overLimit, GrantTable.persisted_of_pairwise ordered]
    decide +kernel
  have shared : (before.table.find? key).any
      (isPromoted Notes.viewer.uid Notes.note Modes.read) = true := by
    decide +kernel
  -- the rollback leaves the grant for the note as it was after the first change
  have left : outcome.authority.table.find? key = promoted.table.find? key := by
    rcases (Option.any_eq_true _ _).1 shared with ⟨grant, found, promotes⟩
    have keyed := GrantTable.key_of_find? found
    have made : promoted.table.find? key = _ :=
      revises_promote before Notes.viewer.uid Notes.note Modes.read (Notes.moment 2) key
    rw [find?_take_of_error failed, made, found, Option.map_some, Option.bind_some, afterRollback,
      if_pos ⟨promotes, keyed ▸ evicted⟩, if_pos promotes]
  have lasting : ∀ bit ∈ Modes.read,
      bit ∈ (promoted.exit Notes.viewer.pid).2.table.effectiveAt key := by
    decide +kernel
  refine ⟨rfl, by decide +kernel, ?_, by decide +kernel, ?_⟩
  · rw [left]
    decide +kernel
  · rw [check_iff]
    right
    right
    refine ⟨by decide, fun bit asked => isGranted_iff.2 ?_⟩
    have effective := lasting bit asked
    rw [GrantTable.effectiveAt, revises_exit key, ← left] at effective
    refine ⟨key, rfl, by decide, fun beneath => absurd beneath Bool.false_ne_true, ?_⟩
    rw [GrantTable.effectiveAt, revises_exit key]
    exact effective

/-! ## Where nothing is evicted that is made durable -/

variable {uid : Nat}

/-- The durable grants of a user that a request does not make durable are older than the request. -/
def IsNewest (authority : Authority) (now : Timestamp) (uid : Nat) (uri : Uri) (modes : Modes) :
    Prop :=
  ∀ grant ∈ authority.table.grants, ∀ kept ∈ grant.toPersisted?, grant.grantee = uid →
    isPromoted uid uri modes grant = false → kept.persistedAt.compare now = .lt

/-- On the way a durable grant is made durable by the request, or is older than it. -/
theorem moment_of_record {kept : PersistedGrant} (newest : authority.IsNewest now uid uri modes)
    (member : kept ∈
      (authority.promoted now uid uri modes).table.persisted fun grant => grant.grantee = uid) :
    (∃ grant ∈ authority.promotable uid uri modes, grant.key = kept.key) ∧ kept.persistedAt = now ∨
      (∀ grant ∈ authority.promotable uid uri modes, grant.key ≠ kept.key) ∧
        kept.persistedAt.compare now = .lt := by
  rcases GrantTable.mem_persisted_iff.1 member with ⟨changed, changedMember, user, made⟩
  rcases (revises_promote authority uid uri modes now).mem_grants changedMember with
    ⟨grant, member, change⟩
  have keyed := PersistedGrant.key_of_toPersisted? made
  split at change
  · rename_i promotes
    cases change
    left
    refine ⟨⟨grant, mem_promotable.2 ⟨member, promotes⟩, keyed.symm⟩, ?_⟩
    rcases Grant.toPersisted?_eq_some_iff.1 made with ⟨_, rfl⟩
    rfl
  · rename_i spared
    cases change
    right
    refine ⟨?_, newest _ member kept made (of_decide_eq_true user) (Bool.eq_false_iff.2 spared)⟩
    intro other promotable same
    rcases mem_promotable.1 promotable with ⟨otherMember, promotes⟩
    have found := GrantTable.mem_grants_iff.1 otherMember
    rw [same, keyed, GrantTable.mem_grants_iff.1 member] at found
    cases found
    exact spared promotes

/-- How many of the durable grants of a user are too many when access is taken. -/
def excess (authority : Authority) (now : Timestamp) (uid : Nat) (uri : Uri) (modes : Modes) : Nat :=
  ((authority.promoted now uid uri modes).persistedBy uid).length - authority.limit

theorem victims_eq : authority.victims now uid uri modes =
    (((authority.promoted now uid uri modes).persistedBy uid).take
      (authority.excess now uid uri modes)).map PersistedGrant.key := rfl

theorem precedes_of_excess {gone left : PersistedGrant}
    (goneMember : gone ∈ ((authority.promoted now uid uri modes).persistedBy uid).take
      (authority.excess now uid uri modes))
    (leftMember : left ∈ ((authority.promoted now uid uri modes).persistedBy uid).drop
      (authority.excess now uid uri modes)) :
    gone.precedes left = true := by
  have sorted : ((authority.promoted now uid uri modes).persistedBy uid).Pairwise
      fun left right => left.precedes right = true := GrantTable.persisted_sorted
  rw [← List.take_append_drop (authority.excess now uid uri modes)
    ((authority.promoted now uid uri modes).persistedBy uid), List.pairwise_append] at sorted
  exact sorted.2.2 gone goneMember left leftMember

/-- Records are evicted from the oldest on, so a grant of the request is evicted only after all
others. -/
theorem exists_promoted_of_evicted (newest : authority.IsNewest now uid uri modes)
    (promotes : grant ∈ authority.promotable uid uri modes)
    (evicted : grant.key ∈ authority.victims now uid uri modes) {other : PersistedGrant}
    (left : other ∈ ((authority.promoted now uid uri modes).persistedBy uid).drop
      (authority.excess now uid uri modes)) :
    ∃ grant ∈ authority.promotable uid uri modes, grant.key = other.key := by
  rw [victims_eq] at evicted
  rcases List.mem_map.1 evicted with ⟨kept, gone, keyed⟩
  have recent : kept.persistedAt = now := by
    rcases moment_of_record newest (List.mem_of_mem_take gone) with ⟨_, moment⟩ | ⟨none, _⟩
    · exact moment
    · exact absurd keyed.symm (none grant promotes)
  rcases moment_of_record newest (List.mem_of_mem_drop left) with ⟨found, _⟩ | ⟨_, older⟩
  · exact found
  · have before := PersistedGrant.isLE_persistedAt_of_precedes (precedes_of_excess gone left)
    have swap : now.compare other.persistedAt = (other.persistedAt.compare now).swap :=
      Std.OrientedCmp.eq_swap
    rw [recent, swap, older] at before
    cases before

theorem notMem_victims (newest : authority.IsNewest now uid uri modes)
    (room : (authority.promotable uid uri modes).length ≤ authority.limit)
    (promotes : grant ∈ authority.promotable uid uri modes) :
    grant.key ∉ authority.victims now uid uri modes := by
  intro evicted
  let records := (authority.promoted now uid uri modes).persistedBy uid
  let excess := authority.excess now uid uri modes
  rcases List.mem_map.1 evicted with ⟨kept, gone, keyed⟩
  change kept ∈ records.take excess at gone
  have nodup : (records.map PersistedGrant.key).Nodup := GrantTable.persisted_keys_nodup
  rw [← List.take_append_drop excess records, List.map_append, List.nodup_append] at nodup
  have apart : ((kept :: records.drop excess).map PersistedGrant.key).Nodup := by
    rw [List.map_cons, List.nodup_cons]
    refine ⟨?_, nodup.2.1⟩
    intro again
    exact nodup.2.2 kept.key (List.mem_map_of_mem gone) kept.key again rfl
  have among : (kept :: records.drop excess).map PersistedGrant.key ⊆
      (authority.promotable uid uri modes).map Grant.key := by
    rw [List.map_cons, keyed, List.cons_subset]
    refine ⟨List.mem_map_of_mem promotes, ?_⟩
    intro key member
    rcases List.mem_map.1 member with ⟨other, left, rfl⟩
    rcases exists_promoted_of_evicted newest promotes evicted left with ⟨grant, promotes, same⟩
    exact same ▸ List.mem_map_of_mem promotes
  have bound := apart.length_le_of_subset among
  have some := List.length_pos_of_mem gone
  have count : excess = records.length - authority.limit := rfl
  simp only [List.length_map, List.length_cons, List.length_drop, List.length_take] at bound some
  omega

/-- If the durable grants of the user are older than a request that fails, and the user can make as
many grants durable as there are for the request, nothing has changed. -/
theorem take_error_unchanged_of_newest (newest : authority.IsNewest now grantee.uid uri modes)
    (room : (authority.promotable grantee.uid uri modes).length ≤ authority.limit)
    (failed : (authority.take now grantee uri modes).answer = .error error) (key : GrantKey) :
    (authority.take now grantee uri modes).authority.table.find? key =
      authority.table.find? key := by
  rw [find?_take_of_error failed]
  cases found : authority.table.find? key with
  | none => rfl
  | some grant =>
      rw [Option.map_some, afterRollback, if_neg]
      rintro ⟨promotes, evicted⟩
      have member := mem_promotable.2 ⟨(GrantTable.find?_eq_some_iff.1 found).1, promotes⟩
      exact notMem_victims newest room member evicted

end Authority

end IntentRouting
