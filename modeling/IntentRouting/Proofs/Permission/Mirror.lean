import IntentRouting.Proofs.Permission.Listing
import Mathlib.Data.List.Induction

/-!
# The store as a mirror of the table

The store is meant to have the records of the table at every moment, so that reloading lists the
same durable access as before (`Authority.Mirrors`, `Authority.ReloadsAlike`). Taking, releasing and
revoking write the store when a record changes. Granting does not, although access that is granted
anew has a new grantor, and the grantor is part of the record. So in a history in which the store
can be written it is a mirror throughout if and only if whoever grants durable access again is the
user who granted it before (`Authority.mirrors_iff_grantors_kept`).
-/

namespace IntentRouting

namespace GrantTable

theorem isRecorded_grantee (uid : Nat) : IsRecorded (fun grant => grant.grantee = uid)
    fun kept => kept.grantee = uid := by
  intro grant kept made
  rcases Grant.toPersisted?_eq_some_iff.1 made with ⟨_, rfl⟩
  rfl

theorem isRecorded_grantor (uid : Nat) : IsRecorded (fun grant => grant.grantor = uid)
    fun kept => kept.grantor = uid := by
  intro grant kept made
  rcases Grant.toPersisted?_eq_some_iff.1 made with ⟨_, rfl⟩
  rfl

theorem grantor_record?_iff {table : GrantTable} {key : GrantKey} {uid : Nat} :
    (∀ kept ∈ table.record? key, kept.grantor = uid) ↔
      ∀ grant ∈ table.find? key, grant.persisted.isEmpty = false → grant.grantor = uid := by
  cases found : table.find? key with
  | none => simp [record?, found]
  | some grant =>
      have record : table.record? key = grant.toPersisted? := by
        rw [record?, found, Option.bind_some]
      cases durable : grant.persisted.isEmpty <;>
        simp [record, Grant.toPersisted?, durable]

end GrantTable

/-- A viewer makes access to a note and to all beneath it durable at once, so that the two records
are tied, and grants access to itself only before. -/
def Notes.keepingAll : List Request :=
  [.register provider, sharing (GrantFlags.ofModes Modes.read),
    .grant (moment 2) viewer note readToKeep viewer,
    sharing (readToKeep ∪ GrantFlags.beneath), .take (moment 3) viewer note Modes.read,
    .rearrange .byGrantee]

namespace Authority

/-- The store has the records of the table, listed as the table lists them up to ties. -/
def Mirrors (authority : Authority) : Prop :=
  PersistedGrant.UpToTies authority.store.records (authority.table.persisted fun _ => true)

/-- After reloading, and in whichever order grants are met then, what a user has made durable is
listed as before up to ties, and so is what others have made durable of what a user granted. -/
def ReloadsAlike (authority : Authority) : Prop :=
  ∀ uid order, let reloaded := authority.reload.rearranged order
    PersistedGrant.UpToTies (reloaded.persistedBy uid) (authority.persistedBy uid) ∧
      PersistedGrant.UpToTies (reloaded.persistedFrom uid) (authority.persistedFrom uid)

variable {authority : Authority} {request : Request}

/-! ## Who granted a record -/

theorem grantor_of_mem_ofEvents {grantor grantee : Identity} {flags : GrantFlags}
    {events : List Event} {delegation : Delegation}
    (member : delegation ∈ Delegation.ofEvents grantor flags grantee events) :
    delegation.grantor = grantor := by
  rcases List.mem_filterMap.1 member with ⟨event, _, made⟩
  split at made
  · cases made
    rfl
  · cases made

/-- All access that a request grants is granted by one user. -/
theorem exists_grantor (authority : Authority) (request : Request) :
    ∃ uid, ∀ delegation ∈ authority.delegations request, delegation.grantor.uid = uid := by
  cases request with
  | grant now grantor uri flags grantee =>
      exact ⟨grantor.uid, fun _ member => congrArg Identity.uid (grantor_of_mem_ofEvents member)⟩
  | dispatch now caller intent receiver =>
      exact ⟨caller.uid, fun _ member => congrArg Identity.uid (grantor_of_mem_ofEvents member)⟩
  | _ => exact ⟨0, fun _ member => absurd member List.not_mem_nil⟩

theorem foldl_renew {delegations : List Delegation} {uid : Nat}
    (common : ∀ delegation ∈ delegations, delegation.grantor.uid = uid) (kept : PersistedGrant) :
    delegations.foldl Delegation.renew kept =
      if ∃ delegation ∈ delegations, delegation.key = kept.key then { kept with grantor := uid }
      else kept := by
  induction delegations generalizing kept with
  | nil => simp
  | cons delegation delegations ih =>
      have granted := common delegation (.head _)
      rw [List.foldl_cons, ih fun other member => common other (.tail _ member),
        Delegation.key_renew]
      by_cases keyed : delegation.key = kept.key
      · simp [Delegation.renew, keyed, granted]
      · simp [Delegation.renew, keyed]

/-- A request that does not write the store leaves all records as they are if and only if whoever
grants durable access by it had granted that access before. -/
theorem record?_perform_eq_iff (unsaved : authority.saves request = false)
    (running : request ≠ .reload) :
    (∀ key, authority.table.record? key = (authority.perform request).authority.table.record? key) ↔
      ∀ delegation ∈ authority.delegations request,
        ∀ kept ∈ authority.table.record? delegation.key,
          kept.grantor = delegation.grantor.uid := by
  rcases authority.exists_grantor request with ⟨uid, common⟩
  constructor
  · intro same delegation member kept record
    have after := same delegation.key
    have keyed : delegation.key = kept.key := (GrantTable.key_of_record? record).symm
    rw [record?_perform request unsaved running, record, Option.map_some, foldl_renew common,
      if_pos ⟨delegation, member, keyed⟩, Option.some.injEq] at after
    rw [after, common delegation member]
  · intro granted key
    rw [record?_perform request unsaved running]
    cases record : authority.table.record? key with
    | none => rfl
    | some kept =>
        rw [Option.map_some, foldl_renew common]
        split
        · rename_i renewed
          rcases renewed with ⟨delegation, member, keyed⟩
          rw [GrantTable.key_of_record? record] at keyed
          rw [← common delegation member, ← granted delegation member kept (keyed ▸ record)]
        · rfl

theorem delegations_of_saves (saving : authority.saves request = true) :
    authority.delegations request = [] := by
  cases request with
  | grant => cases saving
  | dispatch => cases saving
  | _ => rfl

/-! ## Requests -/

theorem Mirrors.record?_reload (mirrors : authority.Mirrors)
    (sound : authority.Everywhere Grant.Sound) (key : GrantKey) :
    authority.reload.table.record? key = authority.table.record? key := by
  rw [reload, record?_load sound.stored, GrantStore.find?_of_records_perm mirrors.perm]

/-- A request leaves a mirror if and only if whoever grants durable access by it had granted that
access before. -/
theorem Mirrors.perform_iff (mirrors : authority.Mirrors)
    (sound : authority.Everywhere Grant.Sound)
    (succeeds : authority.saves request = true → authority.store.failing = false) :
    (authority.perform request).authority.Mirrors ↔
      ∀ delegation ∈ authority.delegations request,
        ∀ grant ∈ authority.table.find? delegation.key, grant.persisted.isEmpty = false →
          grant.grantor = delegation.grantor.uid := by
  simp only [← GrantTable.grantor_record?_iff]
  rcases authority.records_perform_cases request succeeds with
    ⟨saving, records⟩ | ⟨unsaved, records⟩
  · rw [delegations_of_saves saving]
    exact ⟨fun _ _ member => absurd member List.not_mem_nil, fun _ => .of_eq records⟩
  · have kept : (authority.perform request).authority.Mirrors ↔
        PersistedGrant.UpToTies (authority.table.persisted fun _ => true)
          ((authority.perform request).authority.table.persisted fun _ => true) := by
      rw [Mirrors, records]
      exact ⟨mirrors.symm.trans, mirrors.trans⟩
    rw [kept, GrantTable.persisted_upToTies_iff]
    by_cases reloads : request = .reload
    · subst reloads
      refine ⟨fun _ _ member => absurd member List.not_mem_nil, fun _ key => ?_⟩
      exact (mirrors.record?_reload sound key).symm
    · exact record?_perform_eq_iff unsaved reloads

theorem Mirrors.reloadsAlike (mirrors : authority.Mirrors)
    (sound : authority.Everywhere Grant.Sound) : authority.ReloadsAlike := by
  intro uid order reloaded
  have same : ∀ key, reloaded.table.record? key = authority.table.record? key := by
    intro key
    rw [← mirrors.record?_reload sound]
    exact GrantTable.record?_of_revises (revises_rearranged order) fun _ _ => rfl
  constructor
  · exact GrantTable.persisted_upToTies (GrantTable.isRecorded_grantee uid) same
  · exact GrantTable.persisted_upToTies (GrantTable.isRecorded_grantor uid) same

/-! ## Histories -/

theorem savesSucceed_append {earlier later : List Request} :
    authority.SavesSucceed (earlier ++ later) ↔
      authority.SavesSucceed earlier ∧ (authority.run earlier).SavesSucceed later := by
  induction earlier generalizing authority with
  | nil => exact ⟨fun succeed => ⟨trivial, succeed⟩, And.right⟩
  | cons request earlier ih =>
      rw [List.cons_append, SavesSucceed, SavesSucceed, ih, and_assoc]
      rfl

theorem mirrors_new (place : Placement) (settings : PermissionSettings) :
    (new place settings .empty).Mirrors := by
  have none : ((new place settings .empty).table.persisted fun _ => true) = [] := by
    rw [List.eq_nil_iff_forall_not_mem]
    intro kept member
    have record := (GrantTable.record?_eq_some_iff.2 ⟨member, rfl⟩)
    rw [GrantTable.record?, new, GrantTable.find?_empty] at record
    cases record
  exact .of_eq none.symm

theorem forall_delegated_concat {start : Authority} {requests : List Request} {request : Request}
    {property : Authority × Delegation → Prop} :
    (∀ step ∈ start.delegated (requests ++ [request]), property step) ↔
      (∀ step ∈ start.delegated requests, property step) ∧
        ∀ delegation ∈ (start.run requests).delegations request,
          property (start.run requests, delegation) := by
  rw [delegated_append, List.forall_mem_append, delegated, delegated, List.append_nil,
    List.forall_mem_map]

theorem forall_prefix_concat {α : Type} {values : List α} {value : α} {property : List α → Prop} :
    (∀ leading, leading <+: values ++ [value] → property leading) ↔
      (∀ leading, leading <+: values → property leading) ∧ property (values ++ [value]) := by
  simp only [List.prefix_concat_iff, or_imp, forall_and, forall_eq, and_comm]

/-- The induction is on the history from its end: each request adds one moment and what is granted
by it. -/
theorem mirrors_run_iff (place : Placement) (settings : PermissionSettings)
    {requests : List Request} (succeed : (new place settings .empty).SavesSucceed requests) :
    (∀ earlier, earlier <+: requests → ((new place settings .empty).run earlier).Mirrors) ↔
      ∀ step ∈ (new place settings .empty).delegated requests,
        ∀ grant ∈ step.1.table.find? step.2.key, grant.persisted.isEmpty = false →
          grant.grantor = step.2.grantor.uid := by
  induction requests using List.reverseRecOn with
  | nil =>
      refine ⟨fun _ _ member => absurd member List.not_mem_nil, fun _ earlier leading => ?_⟩
      rw [List.prefix_nil.1 leading]
      exact mirrors_new place settings
  | append_singleton requests request ih =>
      rcases savesSucceed_append.1 succeed with ⟨succeed, succeeds, _⟩
      specialize ih succeed
      rw [forall_prefix_concat, forall_delegated_concat, ih, run_concat]
      apply and_congr_right
      intro granted
      have mirrors := ih.2 granted requests (List.prefix_refl requests)
      exact mirrors.perform_iff (sound_run place settings requests) succeeds

/-- In a history in which the store can be written, the store has the records of the table at every
moment, and reloading lists them as before, if and only if whoever grants durable access again is the
user who granted it before. Records with the same time and the same URI may change places. -/
theorem mirrors_iff_grantors_kept (place : Placement) (settings : PermissionSettings)
    {requests : List Request} (succeed : (new place settings .empty).SavesSucceed requests) :
    let start := new place settings .empty
    (∀ earlier, earlier <+: requests →
        (start.run earlier).Mirrors ∧ (start.run earlier).ReloadsAlike) ↔
      ∀ step ∈ start.delegated requests, ∀ grant ∈ step.1.table.find? step.2.key,
        grant.persisted.isEmpty = false → grant.grantor = step.2.grantor.uid := by
  intro start
  rw [← mirrors_run_iff place settings succeed]
  constructor
  · exact fun alike earlier leading => (alike earlier leading).1
  · intro mirrors earlier leading
    have mirror := mirrors earlier leading
    exact ⟨mirror, mirror.reloadsAlike (sound_run place settings earlier)⟩

/-- A viewer who grants a note to itself before it makes the access durable leaves a mirror, although
two records are tied. -/
theorem kept_note_is_mirrored :
    let start := Notes.start 512
    start.SavesSucceed Notes.keepingAll ∧
      ∀ earlier, earlier <+: Notes.keepingAll →
        (start.run earlier).Mirrors ∧ (start.run earlier).ReloadsAlike := by
  intro start
  have succeed : start.SavesSucceed Notes.keepingAll := by decide +kernel
  have granted : ∀ step ∈ start.delegated Notes.keepingAll,
      ∀ grant ∈ step.1.table.find? step.2.key, grant.persisted.isEmpty = false →
        grant.grantor = step.2.grantor.uid := by
    decide +kernel
  exact ⟨succeed, (mirrors_iff_grantors_kept _ _ succeed).2 granted⟩

/-- A viewer who grants a note to itself after it has made the access durable becomes the grantor of
its record, but not in the store. -/
theorem viewer_becomes_grantor_unsaved :
    let requests := [.register Notes.provider, Notes.sharing Notes.readToKeep,
      .take (Notes.moment 2) Notes.viewer Notes.note Modes.read,
      .grant (Notes.moment 3) Notes.viewer Notes.note (.ofModes Modes.read) Notes.viewer]
    let after := (Notes.start 512).run requests
    (Notes.start 512).SavesSucceed requests ∧ ¬ after.Mirrors ∧ ¬ after.ReloadsAlike := by
  intro requests after
  refine ⟨by decide +kernel, ?_, ?_⟩
  · intro mirrors
    have differs : ¬ after.store.records.Perm (after.table.persisted fun _ => true) := by
      decide +kernel
    exact differs mirrors.perm
  · intro alike
    have differs : ((after.reload.rearranged .byGrantee).persistedFrom Notes.owner.uid).length ≠
        (after.persistedFrom Notes.owner.uid).length := by
      decide +kernel
    exact differs (alike Notes.owner.uid .byGrantee).2.perm.length_eq

end Authority

end IntentRouting
