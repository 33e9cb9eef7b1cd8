import IntentRouting.Proofs.Permission.Sharding

/-!
# Requests about different origins

Requests that grant, revoke or release access to URIs of different origins can be made in either order:
each is answered as if it had been made alone, and the grants are the same in the end
(`Authority.inEitherOrder`). The same is true of what is saved, but for the grantors. Revoking and
releasing durable access saves all records, and granting saves none, although it changes the grantor of
a record. So a grantor who is new to a record is in the store if the other request is made last, and
otherwise not (`Authority.alike_swapped_iff`).
-/

namespace IntentRouting

namespace Authority

variable {authority left right : Authority} {origins : Set Uri.Origin} {uri other : Uri}
  {request first second : Request}

theorem AlikeOn.replyTo (alike : left.AlikeOn origins right) (about : request.IsAbout uri)
    (among : uri.origin ∈ origins) : left.replyTo request = right.replyTo request := by
  cases about with
  | grant now grantor flags grantee =>
      exact congrArg Reply.grant (alike.grant among now grantor flags grantee).answer
  | revoke modes user => exact congrArg Reply.count (alike.revoke among user).answer
  | release grantee modes => exact congrArg Reply.done (alike.release among grantee).answer

theorem AlikeOn.delegations (alike : left.AlikeOn origins right) (about : request.IsAbout uri)
    (among : uri.origin ∈ origins) : left.delegations request = right.delegations request := by
  have events := (alike.perform about among).events
  cases about with
  | grant now grantor flags grantee => simp only [Authority.delegations, events]
  | revoke modes user => rfl
  | release grantee modes => rfl

theorem uri_eq_of_mem_delegations {delegation : Delegation} (about : request.IsAbout uri)
    (delegated : delegation ∈ authority.delegations request) : delegation.uri = uri := by
  have member := uri_mem_of_mem_delegations delegated
  cases about with
  | grant now grantor flags grantee => exact List.mem_singleton.1 member
  | revoke modes user => cases member
  | release grantee modes => cases member

/-- Whoever grants durable access by a request is the user who granted it before. -/
def KeepsGrantors (authority : Authority) (request : Request) : Prop :=
  ∀ delegation ∈ authority.delegations request, ∀ grant ∈ authority.table.find? delegation.key,
    grant.persisted.isEmpty = false → grant.grantor = delegation.grantor.uid

theorem AlikeOn.keepsGrantors_iff (alike : left.AlikeOn origins right)
    (about : request.IsAbout uri) (among : uri.origin ∈ origins) :
    left.KeepsGrantors request ↔ right.KeepsGrantors request := by
  rw [KeepsGrantors, KeepsGrantors, alike.delegations about among]
  refine forall₂_congr fun delegation delegated => ?_
  have same := uri_eq_of_mem_delegations about delegated
  rw [alike.grants delegation.key (congrArg Uri.origin same ▸ among)]

theorem keepsGrantors_of_writes (writes : authority.writes request = true) :
    authority.KeepsGrantors request := by
  rw [Authority.writes, Bool.and_eq_true] at writes
  rw [KeepsGrantors, delegations_of_saves writes.1]
  exact fun _ member => absurd member List.not_mem_nil

/-- Each of two requests is answered and announced alike whether or not the other one comes first, and
the grants are the same in the end. -/
structure InEitherOrder (authority : Authority) (first second : Request) : Prop where
  firstReply : (authority.perform second).authority.replyTo first = authority.replyTo first
  firstEvents : ((authority.perform second).authority.perform first).events =
    (authority.perform first).events
  secondReply : (authority.perform first).authority.replyTo second = authority.replyTo second
  secondEvents : ((authority.perform first).authority.perform second).events =
    (authority.perform second).events
  grants : (authority.run [first, second]).AlikeOn Set.univ (authority.run [second, first])

section Apart

variable (aboutFirst : first.IsAbout uri) (aboutSecond : second.IsAbout other)
  (apart : uri.origin ≠ other.origin)

include aboutFirst aboutSecond apart

theorem alikeOn_swapped :
    (authority.run [first, second]).AlikeOn {uri.origin}ᶜ (authority.run [second, first]) := by
  have alike := alikeOn_perform_elsewhere authority aboutFirst
  have after := (alike.perform aboutSecond (Ne.symm apart)).authority
  exact after.trans (alikeOn_perform_elsewhere (authority.perform second).authority aboutFirst).symm

theorem inEitherOrder (authority : Authority) : authority.InEitherOrder first second := by
  have afterFirst := alikeOn_perform_elsewhere authority aboutFirst
  have afterSecond := alikeOn_perform_elsewhere authority aboutSecond
  constructor
  · exact afterSecond.replyTo aboutFirst apart
  · exact (afterSecond.perform aboutFirst apart).events
  · exact afterFirst.replyTo aboutSecond (Ne.symm apart)
  · exact (afterFirst.perform aboutSecond (Ne.symm apart)).events
  · have halfway : (authority.run [first, second]).AlikeOn {uri.origin}ᶜ _ :=
      alikeOn_swapped aboutFirst aboutSecond apart
    have otherHalf : (authority.run [second, first]).AlikeOn {other.origin}ᶜ _ :=
      alikeOn_swapped aboutSecond aboutFirst (Ne.symm apart)
    refine { halfway with grants := fun key _ => ?_ }
    by_cases same : key.uri.origin = uri.origin
    · exact (otherHalf.grants key fun equal => apart (same.symm.trans equal)).symm
    · exact halfway.grants key same

end Apart

/-! ## What is saved -/

/-- A request that writes nothing leaves the list of all records as it is, up to ties, exactly if
whoever grants durable access by it had granted it before. -/
theorem persisted_perform_iff (about : request.IsAbout uri)
    (unsaved : authority.saves request = false) :
    PersistedGrant.UpToTies (authority.table.persisted fun _ => true)
        ((authority.perform request).authority.table.persisted fun _ => true) ↔
      authority.KeepsGrantors request := by
  have running : request ≠ .reload := by
    rintro rfl
    cases about
  rw [GrantTable.persisted_upToTies_iff, record?_perform_eq_iff unsaved running]
  simp only [GrantTable.grantor_record?_iff]
  rfl

section Saving

variable (aboutFirst : first.IsAbout uri) (aboutSecond : second.IsAbout other)
  (apart : uri.origin ≠ other.origin)

include aboutFirst aboutSecond apart

/-- If only the first of two requests writes the store, making it last saves what the other one
leaves. -/
theorem persisted_iff_of_writes (writes : authority.writes first = true)
    (unwritten : authority.writes second = false) :
    PersistedGrant.UpToTies ((authority.perform first).authority.table.persisted fun _ => true)
        ((authority.run [first, second]).table.persisted fun _ => true) ↔
      authority.KeepsGrantors second := by
  have afterFirst := alikeOn_perform_elsewhere authority aboutFirst
  have unsaved : (authority.perform first).authority.saves second = false := by
    rw [Authority.writes, Bool.and_eq_true, Bool.not_eq_true'] at writes
    rw [← afterFirst.writes aboutSecond (Ne.symm apart), Authority.writes, afterFirst.failing,
      writes.2, Bool.not_false, Bool.and_true] at unwritten
    exact unwritten
  exact (persisted_perform_iff aboutSecond unsaved).trans
    (afterFirst.keepsGrantors_iff aboutSecond (Ne.symm apart))

theorem records_swapped_iff :
    PersistedGrant.UpToTies (authority.run [first, second]).store.records
        (authority.run [second, first]).store.records ↔
      (authority.writes first = true → authority.KeepsGrantors second) ∧
        (authority.writes second = true → authority.KeepsGrantors first) := by
  have afterFirst := alikeOn_perform_elsewhere authority aboutFirst
  have afterSecond := alikeOn_perform_elsewhere authority aboutSecond
  have swapped : PersistedGrant.UpToTies
      ((authority.run [first, second]).table.persisted fun _ => true)
      ((authority.run [second, first]).table.persisted fun _ => true) :=
    (inEitherOrder aboutFirst aboutSecond apart authority).grants.persisted_upToTies
      GrantTable.isRecorded_true
  have recordsFirst : (authority.run [first, second]).store.records =
      if authority.writes second then (authority.run [first, second]).table.persisted fun _ => true
      else (authority.perform first).authority.store.records := by
    rw [← afterFirst.writes aboutSecond (Ne.symm apart)]
    exact records_perform _ second
  have recordsSecond : (authority.run [second, first]).store.records =
      if authority.writes first then (authority.run [second, first]).table.persisted fun _ => true
      else (authority.perform second).authority.store.records := by
    rw [← afterSecond.writes aboutFirst apart]
    exact records_perform _ first
  rw [recordsFirst, recordsSecond, records_perform authority first,
    records_perform authority second]
  -- if both write, the later one saves everything; if one does, it misses what comes after it
  cases writesFirst : authority.writes first <;> cases writesSecond : authority.writes second
  case false.false => simp [PersistedGrant.UpToTies.refl]
  case true.true =>
    simp [swapped, keepsGrantors_of_writes writesFirst, keepsGrantors_of_writes writesSecond]
  case true.false =>
    simp only [if_true, Bool.false_eq_true, if_false, true_implies, false_implies, and_true]
    rw [← persisted_iff_of_writes aboutFirst aboutSecond apart writesFirst writesSecond]
    exact ⟨fun same => same.trans swapped.symm, fun same => same.trans swapped⟩
  case false.true =>
    simp only [if_true, Bool.false_eq_true, if_false, true_implies, false_implies, true_and]
    rw [← persisted_iff_of_writes aboutSecond aboutFirst (Ne.symm apart) writesSecond writesFirst]
    exact ⟨fun same => same.symm.trans swapped, fun same => swapped.trans same.symm⟩

/-- Nobody can tell afterwards which of two requests came first, exactly if whoever grants durable
access by one of them had granted it before, or the other one does not write the store. -/
theorem alike_swapped_iff :
    (authority.run [first, second]).Alike (authority.run [second, first]) ↔
      (authority.writes first = true → authority.KeepsGrantors second) ∧
        (authority.writes second = true → authority.KeepsGrantors first) := by
  have either := inEitherOrder aboutFirst aboutSecond apart authority
  rw [← records_swapped_iff aboutFirst aboutSecond apart]
  exact ⟨Alike.records, fun same => ⟨either.grants, same⟩⟩

end Saving

/-- Shards are not seen: however many there are and however they are chosen, what calls are answered
and announced, and what is saved, is the same as with a single one, but for the order of records with
the same time and the same URI, and if where access is taken the same of them are evicted. What is
asked about a URI changes no check of URIs of other origins. Requests about URIs of different origins
can be swapped without changing what they are answered or what is granted in the end. They can be
swapped without changing anything at all if and only if, whenever one of them writes the store,
whoever grants durable access again by the other one had granted it before. -/
theorem shards_unseen_and_swapped_iff (place : Placement) (settings : PermissionSettings)
    {store : GrantStore} {steps others : List Step}
    (stored : ∀ kept ∈ store.records, kept.uri.IsRead)
    (read : ∀ step ∈ steps, ∀ uri ∈ step.call.uris, uri.IsRead)
    (same : List.Forall₂ Step.SameChoice steps others) :
    let sharded := load place settings store
    let single := load (fun _ _ => 0) { settings with shardCount := 1 } store
    let reached := sharded.advanceAll steps
    sharded.shardCount = max settings.shardCount 1 ∧ single.shardCount = 1 ∧
      List.Forall₂ Line.UpToTies (sharded.transcript steps) (single.transcript others) ∧
      (∀ request uri, request.IsAbout uri → ∀ caller target modes, target.origin ≠ uri.origin →
        (reached.perform request).authority.check caller target modes =
          reached.check caller target modes) ∧
      ∀ first second uri other, first.IsAbout uri → second.IsAbout other →
        uri.origin ≠ other.origin →
          reached.InEitherOrder first second ∧
            ((reached.run [first, second]).Alike (reached.run [second, first]) ↔
              (reached.writes first = true → reached.KeepsGrantors second) ∧
                (reached.writes second = true → reached.KeepsGrantors first)) := by
  intro sharded single reached
  have isRead : single.IsRead := isRead_load _ _ stored
  refine ⟨shardCount_load place settings store, shardCount_load _ _ store, ?_, ?_, ?_⟩
  · exact (alike_load place _ settings 1 store).transcript isRead same read
  · intro request uri about caller target modes elsewhere
    exact (alikeOn_perform_elsewhere reached about).check elsewhere caller
  · intro first second uri other aboutFirst aboutSecond apart
    exact ⟨inEitherOrder aboutFirst aboutSecond apart reached,
      alike_swapped_iff aboutFirst aboutSecond apart⟩

end Authority

namespace Notes

def mail : Uri := ⟨some Uri.contentScheme, .hierarchical (some "mail") "/1" none, none⟩

def mailProvider : ProviderInfo := ⟨"mail", "com.mail", owner.uid, none, true, true⟩

def reader : Identity := ⟨10003, 300, "com.reader"⟩

/-- A note is shared with the viewer and a mail with the reader, and both make the access durable. -/
def keepingBoth : List Request :=
  [.register provider, .register mailProvider, sharing readToKeep,
    .grant (moment 2) owner mail readToKeep reader, .take (moment 3) viewer note Modes.read,
    .take (moment 4) reader mail Modes.read]

/-- Mails are in a shard of their own. -/
def mailApart : Placement := fun _ authority => if authority = some "mail" then 1 else 0

/-- The grant for the mail is met first. -/
def mailFirst : KeyOrder := .ofList [⟨reader.uid, mail, false⟩]

/-- Access to the mail is revoked, and access to the note is granted again by its owner: it does not
matter in which order, and neither does it matter that the two are in different shards, or that grants
are met in another order where nothing is taken. -/
theorem mail_revoked_note_granted_again :
    let calls := keepingBoth.map Call.ask ++ [.check viewer note Modes.read, .persistedFrom owner.uid]
    let steps := calls.map (Step.mk .byGrantee)
    let others := calls.map fun call => ⟨if call.takes then .byGrantee else mailFirst, call⟩
    let sharded := Authority.load mailApart ⟨4, true, 512⟩ .empty
    let single := Authority.load (fun _ _ => 0) ⟨1, true, 512⟩ .empty
    let reached := sharded.advanceAll steps
    let revoking : Request := .revoke mail Modes.read none
    let granting : Request := .grant (moment 5) owner note (.ofModes Modes.read) viewer
    sharded.shardCount = 4 ∧
      List.Forall₂ Line.UpToTies (sharded.transcript steps) (single.transcript others) ∧
      mail.origin ≠ note.origin ∧ reached.writes revoking = true ∧
        reached.KeepsGrantors granting ∧
          (reached.run [revoking, granting]).Alike (reached.run [granting, revoking]) := by
  intro calls steps others sharded single reached revoking granting
  have noteRead : note.IsRead := ⟨"content://notes/1", rfl⟩
  have mailRead : mail.IsRead := ⟨"content://mail/1", rfl⟩
  have read : ∀ step ∈ steps, ∀ uri ∈ step.call.uris, uri.IsRead := by
    have named : ∀ step ∈ steps, ∀ uri ∈ step.call.uris, uri = note ∨ uri = mail := by
      decide +kernel
    intro step member uri given
    rcases named step member uri given with rfl | rfl
    · exact noteRead
    · exact mailRead
  have stored : ∀ kept ∈ GrantStore.empty.records, kept.uri.IsRead := by
    rintro _ ⟨⟩
  have choice : List.Forall₂ Step.SameChoice steps others := by
    rw [List.forall₂_map_left_iff, List.forall₂_map_right_iff, List.forall₂_same]
    exact fun call _ => ⟨rfl, fun takes => (if_pos takes).symm⟩
  rcases Authority.shards_unseen_and_swapped_iff mailApart ⟨4, true, 512⟩ stored read choice with
    ⟨count, _, same, _, swapped⟩
  have apart : mail.origin ≠ note.origin := by decide
  have writes : reached.writes revoking = true := by decide +kernel
  have granted : (reached.table.find? ⟨viewer.uid, note, false⟩).all
      (·.grantor = owner.uid) = true := by
    decide +kernel
  have keeps : reached.KeepsGrantors granting := by
    intro delegation member grant found _
    have uri : delegation.uri = note :=
      Authority.uri_eq_of_mem_delegations (.grant _ _ _ _) member
    rcases List.mem_filterMap.1 member with ⟨event, _, made⟩
    split at made
    · cases made
      cases uri
      have found : reached.table.find? ⟨viewer.uid, note, false⟩ = some grant := found
      rw [found] at granted
      exact of_decide_eq_true granted
    · cases made
  have grantsNothing : reached.writes granting = false := rfl
  refine ⟨count, same, apart, writes, keeps, ?_⟩
  rw [(swapped revoking granting mail note (.revoke _ _) (.grant _ _ _ _) apart).2]
  exact ⟨fun _ => keeps, fun unwritten => by rw [grantsNothing] at unwritten; cases unwritten⟩

/-- Access to the mail is revoked, and the viewer grants access to the note to itself: the store knows
of the new grantor only if the mail comes last. -/
theorem mail_revoked_before_or_after :
    let reached := (start 512).run keepingBoth
    let revoking : Request := .revoke mail Modes.read none
    let granting : Request := .grant (moment 5) viewer note (.ofModes Modes.read) viewer
    mail.origin ≠ note.origin ∧ (start 512).SavesSucceed (keepingBoth ++ [revoking, granting]) ∧
      (reached.run [revoking, granting]).store.records.map (·.grantor) = [owner.uid] ∧
        (reached.run [granting, revoking]).store.records.map (·.grantor) = [viewer.uid] ∧
          ¬ (reached.run [revoking, granting]).Alike (reached.run [granting, revoking]) := by
  intro reached revoking granting
  have former : (reached.run [revoking, granting]).store.records.map (·.grantor) = [owner.uid] := by
    decide +kernel
  have latter : (reached.run [granting, revoking]).store.records.map (·.grantor) = [viewer.uid] := by
    decide +kernel
  refine ⟨by decide, by decide +kernel, former, latter, ?_⟩
  intro alike
  have same := alike.records.perm.map (·.grantor)
  rw [former, latter] at same
  exact absurd same (by decide)

end Notes

end IntentRouting
