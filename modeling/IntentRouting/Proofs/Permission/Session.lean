import IntentRouting.Proofs.Permission.Access
import IntentRouting.Proofs.Permission.Records
import Mathlib.Data.List.Induction

/-!
# Sessions

Transient modes last as long as a process, and a grant has one process: the one to which access was
granted last under its key. Its end takes all transient modes of the grant away, also those that were
granted to other processes of the user; the end of another process takes none of them. So whether a
mode is transient depends on more of a history than the process to which it was granted.

A mode is transient in a grant if and only if it was granted under its key and nothing ended it
since then: neither a revocation nor the end of the process to which access under the key had been
granted last by that time (`Authority.mem_transient_iff_lasts`). The invariant behind this says in
addition which process the grant has (`Authority.Tracked`).
-/

namespace IntentRouting

/-- The process whose end takes the transient modes of the grant of a key away. -/
def GrantTable.session? (table : GrantTable) (key : GrantKey) : Option Nat :=
  (table.find? key).bind Grant.session

/-- Whether a request takes a flag from the grant of a key, if it has the flag. -/
def Request.revokes (key : GrantKey) (bit : Fin 32) : Request → Bool
  | .revoke uri modes user => key.uri.isBeneath uri && user.all (· = key.grantee) && bit ∈ modes
  | _ => false

/-- Whether a request ends a transient flag of the grant of a key that has some process. -/
def Request.ends (process : Option Nat) (key : GrantKey) (bit : Fin 32) : Request → Bool
  | .exit pid => process = some pid
  | request => request.revokes key bit

namespace Authority

/-- The process to which access under a key was granted last. -/
def lastProcess? (start : Authority) (requests : List Request) (key : GrantKey) : Option Nat :=
  (((start.delegated requests).map Prod.snd).filter fun delegation =>
    delegation.key = key).getLast?.map fun delegation => delegation.grantee.pid

/-- A request grants a flag under a key. -/
def Grants (authority : Authority) (request : Request) (key : GrantKey) (bit : Fin 32) : Prop :=
  ∃ delegation ∈ authority.delegations request, delegation.key = key ∧ bit ∈ delegation.flags.modes

/-- In a history, a flag was granted under a key and nothing ended it since then. -/
def Lasts (start : Authority) (requests : List Request) (key : GrantKey) (bit : Fin 32) : Prop :=
  ∃ before request after, requests = before ++ request :: after ∧
    (start.run before).Grants request key bit ∧
      ∀ middle later rest, after = middle ++ later :: rest →
        later.ends (start.lastProcess? (before ++ request :: middle) key) key bit = false

variable {start : Authority} {requests : List Request} {request : Request} {key : GrantKey}
  {bit : Fin 32}

/-! ## One more request -/

theorem lasts_concat : start.Lasts (requests ++ [request]) key bit ↔
    (start.run requests).Grants request key bit ∨
      start.Lasts requests key bit ∧
        request.ends (start.lastProcess? requests key) key bit = false := by
  constructor
  · rintro ⟨before, granting, after, parts, granted, lasts⟩
    rcases List.eq_nil_or_concat after with rfl | ⟨after, last, rfl⟩
    · rcases List.append_inj' parts rfl with ⟨rfl, same⟩
      cases same
      exact .inl granted
    · rw [List.concat_eq_append] at parts lasts
      have split : requests ++ [request] = (before ++ granting :: after) ++ [last] := by
        rw [parts, List.append_assoc, List.cons_append]
      rcases List.append_inj' split rfl with ⟨rfl, same⟩
      cases same
      refine .inr ⟨⟨before, granting, after, rfl, granted, ?_⟩, lasts after request [] rfl⟩
      rintro middle later rest rfl
      exact lasts middle later (rest ++ [request]) (by simp)
  · rintro (granted | ⟨⟨before, granting, after, rfl, granted, lasts⟩, unended⟩)
    · refine ⟨requests, request, [], rfl, granted, ?_⟩
      intro middle later rest parts
      simp at parts
    · refine ⟨before, granting, after ++ [request], by simp, granted, ?_⟩
      intro middle later rest parts
      rcases List.eq_nil_or_concat rest with rfl | ⟨rest, last, rfl⟩
      · rcases List.append_inj' parts rfl with ⟨rfl, same⟩
        cases same
        exact unended
      · have split : after ++ [request] = (middle ++ later :: rest) ++ [last] := by
          rw [parts, List.concat_eq_append, List.append_assoc, List.cons_append]
        rcases List.append_inj' split rfl with ⟨rfl, _⟩
        exact lasts middle later rest rfl

/-- The process to which a request grants access under a key. -/
def newProcess? (authority : Authority) (request : Request) (key : GrantKey) : Option Nat :=
  ((authority.delegations request).filter fun delegation =>
    delegation.key = key).getLast?.map fun delegation => delegation.grantee.pid

theorem lastProcess?_concat : start.lastProcess? (requests ++ [request]) key =
    ((start.run requests).newProcess? request key).or (start.lastProcess? requests key) := by
  have added : (start.delegated (requests ++ [request])).map Prod.snd =
      (start.delegated requests).map Prod.snd ++ (start.run requests).delegations request := by
    rw [delegated_append, delegated, delegated, List.append_nil, List.map_append, List.map_map]
    exact congrArg _ (List.map_id _)
  rw [lastProcess?, added, List.filter_append, List.getLast?_append, Option.map_or]
  rfl

end Authority

/-! ## What granting does to the grant of a key -/

/-- The grant of a key after a delegation. -/
def Delegation.widen (now : Timestamp) (key : GrantKey) (found : Option Grant)
    (delegation : Delegation) : Option Grant :=
  if delegation.key = key then
    some ((found.getD (.ofKey key delegation.grantor.uid now)).widen delegation.grantor.uid
      delegation.grantee.pid delegation.flags.modes delegation.flags.isPersistable)
  else found

namespace Delegation

variable {now : Timestamp} {key : GrantKey} {bit : Fin 32}

theorem mem_transient_widen {found : Option Grant} {delegation : Delegation} :
    bit ∈ (widen now key found delegation).elim .empty Grant.transient ↔
      bit ∈ found.elim .empty Grant.transient ∨
        delegation.key = key ∧ bit ∈ delegation.flags.modes := by
  by_cases keyed : delegation.key = key
  · cases found <;> simp [widen, keyed, Grant.widen, Grant.ofKey]
  · simp [widen, keyed]

theorem mem_transient_foldl_widen (delegations : List Delegation) (found : Option Grant) :
    bit ∈ (delegations.foldl (widen now key) found).elim .empty Grant.transient ↔
      bit ∈ found.elim .empty Grant.transient ∨
        ∃ delegation ∈ delegations, delegation.key = key ∧ bit ∈ delegation.flags.modes := by
  induction delegations generalizing found with
  | nil => simp
  | cons delegation delegations ih =>
      rw [List.foldl_cons, ih, mem_transient_widen]
      simp only [List.mem_cons, exists_eq_or_imp, or_assoc]

theorem session_foldl_widen (now : Timestamp) (key : GrantKey) (delegations : List Delegation)
    (found : Option Grant) :
    (delegations.foldl (widen now key) found).bind Grant.session =
      ((delegations.filter fun delegation => delegation.key = key).getLast?.map
        fun delegation => delegation.grantee.pid).or (found.bind Grant.session) := by
  induction delegations generalizing found with
  | nil => rfl
  | cons delegation delegations ih =>
      rw [List.foldl_cons, ih, List.filter_cons]
      by_cases keyed : delegation.key = key
      · rw [if_pos (decide_eq_true keyed), List.getLast?_cons, widen, if_pos keyed]
        cases (delegations.filter fun delegation => delegation.key = key).getLast? <;> rfl
      · rw [if_neg (by simp [keyed]), widen, if_neg keyed]

end Delegation

namespace Authority

variable {authority : Authority} {request : Request} {key : GrantKey} {bit : Fin 32}
  {now : Timestamp} {grantor grantee : Identity} {uri : Uri} {flags : GrantFlags}

theorem find?_granted : (authority.granted now grantor uri flags grantee).table.find? key =
    Delegation.widen now key (authority.table.find? key) ⟨grantor, uri, flags, grantee⟩ := by
  rw [granted, GrantTable.find?_put, key_widened, Delegation.widen, Delegation.key]
  by_cases same : key = ⟨grantee.uid, uri, flags.isPrefix⟩
  · rw [if_pos same, if_pos same.symm, same]
    rfl
  · rw [if_neg same, if_neg (Ne.symm same)]

theorem find?_grantEach (uris : List Uri) :
    let outcome := authority.grantEach now grantor flags grantee uris
    outcome.authority.table.find? key =
      (Delegation.ofEvents grantor flags grantee outcome.events).foldl (Delegation.widen now key)
        (authority.table.find? key) := by
  induction uris generalizing authority with
  | nil => rfl
  | cons uri uris ih =>
      intro outcome
      rcases authority.grant_cases now grantor uri flags grantee with
        ⟨error, _, after⟩ | ⟨_, after⟩
      · rw [show outcome = authority.refuse error from grantEach_cons_of_fault after]
        rfl
      · rcases grantEach_cons_of_granted uris after with ⟨authorityAfter, eventsAfter⟩
        rw [authorityAfter, eventsAfter, ih, find?_granted]
        rfl

/-- After a request, the grant of a key has a transient flag if the request grants it, or if the
grant had it and the request does not end it. As long as it has the flag, its process is the one to
which access was granted last. -/
structure UseAfter (authority : Authority) (request : Request) (key : GrantKey) (bit : Fin 32)
    (after : GrantTable) : Prop where
  transient : bit ∈ after.modesAt Grant.transient key ↔ authority.Grants request key bit ∨
    bit ∈ authority.table.modesAt Grant.transient key ∧
      request.ends (authority.table.session? key) key bit = false
  process : bit ∈ after.modesAt Grant.transient key →
    after.session? key = (authority.newProcess? request key).or (authority.table.session? key)

theorem useAfter_of_granted (now : Timestamp) {after : GrantTable}
    (granted : after.find? key =
      (authority.delegations request).foldl (Delegation.widen now key)
        (authority.table.find? key))
    (spares : ∀ process, request.ends process key bit = false) :
    authority.UseAfter request key bit after := by
  have session := Delegation.session_foldl_widen now key (authority.delegations request)
    (authority.table.find? key)
  rw [← granted] at session
  refine ⟨?_, fun _ => session⟩
  rw [GrantTable.modesAt, granted, Delegation.mem_transient_foldl_widen, spares, or_comm,
    and_iff_left rfl]
  rfl

end Authority

/-! ## What the other requests do -/

namespace Grant

/-- A grant is left with its transient modes and its process, or nothing is left of it and it had no
transient modes. -/
def KeepsUse (grant : Grant) (left? : Option Grant) : Prop :=
  (∀ bit, (∃ left ∈ left?, bit ∈ left.transient) ↔ bit ∈ grant.transient) ∧
    ∀ left ∈ left?, left.session = grant.session

variable {grant changed : Grant} {bit : Fin 32}

theorem exists_mem_settled :
    (∃ left ∈ grant.settled, bit ∈ left.transient) ↔ bit ∈ grant.transient := by
  constructor
  · rintro ⟨left, kept, held⟩
    rw [← (settled_eq_some_iff.1 kept).2] at held
    exact held
  · intro held
    have nonempty := isEmpty_eq_false_iff.2 ⟨bit, .inl held⟩
    exact ⟨grant, settled_eq_some_iff.2 ⟨nonempty, rfl⟩, held⟩

theorem keepsUse_some (transient : changed.transient = grant.transient)
    (session : changed.session = grant.session) : grant.KeepsUse (some changed) := by
  simp [KeepsUse, transient, session]

theorem keepsUse_settled (transient : changed.transient = grant.transient)
    (session : changed.session = grant.session) : grant.KeepsUse changed.settled := by
  constructor
  · intro bit
    rw [exists_mem_settled, transient]
  · intro left kept
    rw [← (settled_eq_some_iff.1 kept).2, session]

end Grant

namespace Authority

variable {authority : Authority} {request : Request} {key : GrantKey} {bit : Fin 32}
  {now : Timestamp} {uri : Uri} {modes : Modes} {uid : Nat} {victims : List GrantKey}
  {grant : Grant}

theorem keepsUse_afterTaking :
    grant.KeepsUse (afterTaking uid uri modes now victims grant) := by
  simp only [afterTaking, afterEvicting]
  split <;> split
  · exact Grant.keepsUse_settled rfl rfl
  · exact Grant.keepsUse_some rfl rfl
  · exact Grant.keepsUse_settled rfl rfl
  · exact Grant.keepsUse_some rfl rfl

theorem keepsUse_afterRollback :
    grant.KeepsUse (some (afterRollback uid uri modes now victims grant)) := by
  simp only [afterRollback]
  split <;> exact Grant.keepsUse_some rfl rfl

theorem keepsUse_afterReleasing :
    grant.KeepsUse (afterReleasing uid uri modes grant) := by
  simp only [afterReleasing]
  split
  · exact Grant.keepsUse_settled rfl rfl
  · exact Grant.keepsUse_some rfl rfl

/-- A request that grants nothing and changes each grant on its own. -/
theorem useAfter_of_revises {after : GrantTable} {change : Grant → Option Grant}
    (revises : after.Revises authority.table change) (none : authority.delegations request = [])
    (transient : ∀ grant ∈ authority.table.grants,
      (∃ left ∈ change grant, bit ∈ left.transient) ↔
        bit ∈ grant.transient ∧ request.ends grant.session grant.key bit = false)
    (session : ∀ grant ∈ authority.table.grants, ∀ left ∈ change grant, bit ∈ left.transient →
      left.session = grant.session) :
    authority.UseAfter request key bit after := by
  have ungranted : ¬ authority.Grants request key bit := by
    rintro ⟨delegation, member, _⟩
    rw [none] at member
    cases member
  have same : authority.newProcess? request key = .none := by
    rw [newProcess?, none]
    rfl
  constructor
  · rw [GrantTable.mem_modesAt, GrantTable.mem_modesAt, revises key, GrantTable.session?]
    cases found : authority.table.find? key with
    | none => simp [ungranted]
    | some grant =>
        rcases GrantTable.find?_eq_some_iff.1 found with ⟨member, rfl⟩
        simpa [ungranted] using transient grant member
  · rw [GrantTable.mem_modesAt, GrantTable.session?, GrantTable.session?, revises key, same,
      Option.none_or]
    rintro ⟨left, kept, held⟩
    rcases Option.bind_eq_some_iff.1 kept with ⟨grant, found, changed⟩
    rw [kept, found, Option.bind_some, Option.bind_some]
    exact session grant (GrantTable.find?_eq_some_iff.1 found).1 left changed held

theorem useAfter_of_keepsUse {after : GrantTable} {change : Grant → Option Grant}
    (revises : after.Revises authority.table change) (none : authority.delegations request = [])
    (keeps : ∀ grant : Grant, grant.KeepsUse (change grant))
    (spares : ∀ process key, request.ends process key bit = false) :
    authority.UseAfter request key bit after := by
  apply useAfter_of_revises revises none
  · intro grant _
    rw [(keeps grant).1 bit, spares, and_iff_left rfl]
  · intro grant _ left changed _
    exact (keeps grant).2 left changed

theorem keepsUse_self (grant : Grant) : grant.KeepsUse (some grant) :=
  Grant.keepsUse_some rfl rfl

theorem useAfter_revoke (user : Option Nat) :
    authority.UseAfter (.revoke uri modes user) key bit (authority.revoked uri modes user) := by
  apply useAfter_of_revises revises_revoked rfl
  · intro grant _
    simp only [afterRevoking]
    split
    · rename_i revoked
      simp only [isRevoked, Bool.and_eq_true] at revoked
      have beneath : grant.key.uri.isBeneath uri = true := revoked.1.1
      have affected : user.all (· = grant.key.grantee) = true := revoked.1.2
      rw [Grant.exists_mem_settled]
      simp only [Request.ends, Request.revokes, Grant.without, beneath, affected, Bool.true_and,
        FlagSet.mem_sdiff, decide_eq_false_iff_not]
    · rename_i spared
      -- a transient flag can be used, so a revocation of it would have touched the grant
      have outside : bit ∈ grant.transient →
          (Request.revoke uri modes user).revokes grant.key bit = false := by
        intro held
        rw [← Bool.not_eq_true]
        intro taken
        simp only [Request.revokes, Bool.and_eq_true, decide_eq_true_eq] at taken
        apply spared
        simp only [isRevoked, Bool.and_eq_true]
        have used : bit ∈ grant.effective := FlagSet.mem_union.2 (.inl held)
        exact ⟨taken.1, FlagSet.intersects_iff.2 ⟨bit, taken.2, used⟩⟩
      simpa [Request.ends] using outside
  · intro grant _ left changed _
    simp only [afterRevoking] at changed
    split at changed
    · rw [← (Grant.settled_eq_some_iff.1 changed).2]
      rfl
    · cases changed
      rfl

theorem useAfter_exit (pid : Nat) :
    authority.UseAfter (.exit pid) key bit (authority.exit pid).2.table := by
  apply useAfter_of_revises revises_exit rfl
  · intro grant _
    simp only [afterExit, Request.ends]
    split
    · rename_i ended
      rw [Grant.exists_mem_settled]
      simp [Grant.endSession, ended]
    · rename_i running
      simp [running]
  · intro grant _ left changed held
    simp only [afterExit] at changed
    split at changed
    · rw [← (Grant.settled_eq_some_iff.1 changed).2] at held
      exact absurd held FlagSet.not_mem_empty
    · cases changed
      rfl

/-- What each request but a reload does to the transient modes of a grant and to its process. -/
theorem useAfter_perform (authority : Authority) (request : Request) (running : request ≠ .reload)
    (key : GrantKey) (bit : Fin 32) :
    authority.UseAfter request key bit (authority.perform request).authority.table := by
  have unchanged : authority.table.Revises authority.table some := .refl authority.table
  cases request with
  | register info => exact useAfter_of_keepsUse unchanged rfl keepsUse_self fun _ _ => rfl
  | unregister name => exact useAfter_of_keepsUse unchanged rfl keepsUse_self fun _ _ => rfl
  | grant now grantor uri flags grantee =>
      apply useAfter_of_granted now _ fun _ => rfl
      simp only [perform, delegations, Outcome.withoutAnswer]
      rcases authority.grant_cases now grantor uri flags grantee with ⟨error, _, after⟩ | ⟨_, after⟩
      · rw [after]
        rfl
      · rw [after]
        exact find?_granted
  | dispatch now caller intent receiver =>
      apply useAfter_of_granted now _ fun _ => rfl
      simp only [perform, delegations, Outcome.withoutAnswer, dispatch]
      split
      · rfl
      · exact find?_grantEach intent.reachedContent
  | revoke uri modes user =>
      have revoked : authority.UseAfter (.revoke uri modes user) key bit
          (authority.revoked uri modes user) := useAfter_revoke user
      rcases authority.revoke_cases uri modes user with ⟨_, _, after⟩ | ⟨_, after⟩
      · rw [perform, Outcome.withoutAnswer, after]
        exact revoked
      · rw [perform, Outcome.withoutAnswer, after]
        exact revoked
  | take now grantee uri modes =>
      rcases authority.take_cases now grantee uri modes with
        ⟨error, after, _⟩ | ⟨_, ⟨_, after⟩ | ⟨_, after⟩⟩
      · rw [perform, after]
        exact useAfter_of_keepsUse unchanged rfl keepsUse_self fun _ _ => rfl
      · rw [perform, after]
        exact useAfter_of_keepsUse revises_taken rfl (fun _ => keepsUse_afterTaking) fun _ _ => rfl
      · rw [perform, after]
        exact useAfter_of_keepsUse revises_rolledBack rfl (fun _ => keepsUse_afterRollback)
          fun _ _ => rfl
  | release grantee uri modes =>
      rcases authority.release_cases grantee uri modes with
        ⟨error, after, _⟩ | ⟨_, ⟨_, after⟩ | ⟨_, after⟩⟩
      · rw [perform, after]
        exact useAfter_of_keepsUse unchanged rfl keepsUse_self fun _ _ => rfl
      · rw [perform, after]
        exact useAfter_of_keepsUse revises_released rfl (fun _ => keepsUse_afterReleasing)
          fun _ _ => rfl
      · rw [perform, after]
        exact useAfter_of_keepsUse revises_unreleased rfl keepsUse_self fun _ _ => rfl
  | exit pid => exact useAfter_exit pid
  | storeFails failing => exact useAfter_of_keepsUse unchanged rfl keepsUse_self fun _ _ => rfl
  | reload => exact absurd rfl running
  | rearrange order =>
      exact useAfter_of_keepsUse (revises_rearranged order) rfl keepsUse_self fun _ _ => rfl

/-! ## Histories -/

/-- After a history, a flag is transient if it lasts, and as long as it does the process of the
grant is the one to which access was granted last. -/
structure Tracked (start : Authority) (requests : List Request) (key : GrantKey) (bit : Fin 32) :
    Prop where
  transient : bit ∈ (start.run requests).table.modesAt Grant.transient key ↔
    start.Lasts requests key bit
  process : bit ∈ (start.run requests).table.modesAt Grant.transient key →
    (start.run requests).table.session? key = start.lastProcess? requests key

variable {start : Authority} {requests : List Request}

theorem not_grants_of_newProcess? (none : authority.newProcess? request key = .none) :
    ¬ authority.Grants request key bit := by
  rintro ⟨delegation, member, keyed, _⟩
  rw [newProcess?, Option.map_eq_none_iff, List.getLast?_eq_none_iff, List.filter_eq_nil_iff] at none
  exact none delegation member (decide_eq_true keyed)

theorem Tracked.concat (tracked : start.Tracked requests key bit) (running : request ≠ .reload) :
    start.Tracked (requests ++ [request]) key bit := by
  rcases useAfter_perform (start.run requests) request running key bit with ⟨transient, process⟩
  rw [← run_concat] at transient process
  constructor
  · rw [transient, lasts_concat, ← tracked.transient]
    apply or_congr_right
    apply and_congr_right
    intro held
    rw [tracked.process held]
  · intro held
    rw [process held, lastProcess?_concat]
    cases granted : (start.run requests).newProcess? request key with
    | some pid => rfl
    | none =>
        -- the flag was not granted just now, so the grant had it before
        have held := (transient.1 held).resolve_left (not_grants_of_newProcess? granted)
        rw [Option.none_or, Option.none_or, tracked.process held.1]

theorem tracked_run (place : Placement) (settings : PermissionSettings) (store : GrantStore)
    (running : .reload ∉ requests) (key : GrantKey) (bit : Fin 32) :
    (load place settings store).Tracked requests key bit := by
  induction requests using List.reverseRecOn with
  | nil =>
      have none : bit ∉ (load place settings store).table.modesAt Grant.transient key := by
        rw [GrantTable.mem_modesAt]
        rintro ⟨grant, found, held⟩
        rcases exists_record_of_mem_load (GrantTable.find?_eq_some_iff.1 found).1 with ⟨_, _, rfl⟩
        exact FlagSet.not_mem_empty held
      refine ⟨⟨fun held => absurd held none, ?_⟩, fun held => absurd held none⟩
      rintro ⟨before, request, after, parts, _⟩
      simp at parts
  | append_singleton requests request ih =>
      rw [List.mem_append, not_or] at running
      exact (ih running.1).concat fun reloads => running.2 (reloads ▸ .head _)

/-- In a history without reloading, a flag is transient in the grant of a key if and only if it was
granted under the key and since then neither was it revoked nor did the process end to which access
under the key had been granted last. -/
theorem mem_transient_iff_lasts (place : Placement) (settings : PermissionSettings)
    (store : GrantStore) (running : .reload ∉ requests) (key : GrantKey) (bit : Fin 32) :
    let start := load place settings store
    bit ∈ (start.run requests).table.modesAt Grant.transient key ↔
      start.Lasts requests key bit :=
  (tracked_run place settings store running key bit).transient

end Authority

namespace Notes

/-- The viewer in another process. -/
def viewerAgain : Identity := ⟨10002, 201, "com.viewer"⟩

/-- Reading the note is granted to the viewer in one process, and writing it in another. Then one of
the two processes ends. -/
def sharingWithTwo (ended : Identity) : List Request :=
  [.register provider, sharing (.ofModes Modes.read),
    .grant (moment 2) owner note (.ofModes Modes.write) viewerAgain, .exit ended.pid]

end Notes

namespace Authority

/-- The end of the process in which a viewer was granted reading does not take reading away, since
access was granted to another process last. -/
theorem reading_lasts_with_last_process :
    let requests := Notes.sharingWithTwo Notes.viewer
    let key : GrantKey := ⟨Notes.viewer.uid, Notes.note, false⟩
    .reload ∉ requests ∧ (Notes.start 512).Lasts requests key 0 := by
  intro requests key
  have running : .reload ∉ requests := by simp [requests, Notes.sharingWithTwo, Notes.sharing]
  have held : 0 ∈ ((Notes.start 512).run requests).table.modesAt Grant.transient key := by
    decide +kernel
  exact ⟨running, (mem_transient_iff_lasts _ _ .empty running key 0).1 held⟩

/-- In a history, a flag was granted under a key to a process that did not end since then, and it
was not revoked. -/
def GrantedToRunning (authority : Authority) (key : GrantKey) (bit : Fin 32) :
    List Request → Prop
  | [] => False
  | request :: later =>
      (∃ delegation ∈ authority.delegations request, delegation.key = key ∧
        bit ∈ delegation.flags.modes ∧
          ∀ other ∈ later, other.ends (some delegation.grantee.pid) key bit = false) ∨
        (authority.perform request).authority.GrantedToRunning key bit later

instance decidableGrantedToRunning (key : GrantKey) (bit : Fin 32) :
    (authority : Authority) → (requests : List Request) →
      Decidable (authority.GrantedToRunning key bit requests)
  | _, [] => inferInstanceAs (Decidable False)
  | authority, request :: later =>
      have := decidableGrantedToRunning key bit (authority.perform request).authority later
      inferInstanceAs (Decidable (_ ∨ _))

/-- Of two processes of a viewer, the one in which reading a note was granted ends, and the viewer
may still read it. If the other one ends instead, the viewer may not read it any more. Nothing else
happens, so no process comes back. -/
theorem reading_does_not_follow_its_process :
    let key : GrantKey := ⟨Notes.viewer.uid, Notes.note, false⟩
    let first := Notes.sharingWithTwo Notes.viewer
    let second := Notes.sharingWithTwo Notes.viewerAgain
    0 ∈ ((Notes.start 512).run first).table.modesAt Grant.transient key ∧
      ¬ (Notes.start 512).GrantedToRunning key 0 first ∧
      0 ∉ ((Notes.start 512).run second).table.modesAt Grant.transient key ∧
      (Notes.start 512).GrantedToRunning key 0 second := by
  decide +kernel

end Authority

end IntentRouting
