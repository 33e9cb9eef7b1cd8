import IntentRouting.Proofs.Permission.Delivery
import IntentRouting.Proofs.Permission.Quota
import IntentRouting.Proofs.Permission.Restart
import IntentRouting.Proofs.Permission.Scope

/-!
# What is announced of durable access

Who follows the events of an authority knows when durable access is withdrawn: each durable mode
that a request takes away is announced as revoked or released, on the URI or on one that it lies
beneath, for its user or for all. The exception is what a user loses by taking more than the limit
allows. That is evicted while the request announces only what was made durable.

A request that is refused announces nothing, unless it delivers an intent: an intent is granted URI
by URI, and what was granted before the first URI that could not be granted stays granted and is
announced (`Authority.StopsAt`, `Request.AnnouncesRefused`).

Every request that takes durable modes away is a revision of the table, so the proof asks of one
grant what is left of it, and of the request which of its events says so.
-/

namespace IntentRouting

/-- Whether an event says that a durable mode of a key is withdrawn. -/
def Event.Withdraws (event : Event) (key : GrantKey) (bit : Fin 32) : Prop :=
  match event with
  | .revoked uri user modes =>
      key.uri.isBeneath uri = true ∧ (∀ grantee ∈ user, grantee = key.grantee) ∧ bit ∈ modes
  | .released uri grantee modes =>
      key.uri.isBeneath uri = true ∧ grantee = key.grantee ∧ bit ∈ modes
  | _ => False

/-- An authority has granted some URIs, one after the other, and could not grant the next one. It has
announced these grants and nothing else, and has left them in place. -/
structure Authority.StopsAt (before : Authority) (now : Timestamp) (grantor : Identity)
    (flags : GrantFlags) (grantee : Identity) (granted : List Uri) (refused : Uri) (error : Error)
    (outcome : Authority.Outcome Unit) : Prop where
  grants : ∃ grants, before.GrantsAll now grantor flags grantee granted grants outcome.authority
      outcome.events ∧
    ∀ grant ∈ grants, outcome.authority.table.find? grant.key = some grant
  /-- The authority that the grants have left refuses the next one, and changes nothing. -/
  fault : outcome.authority.grant now grantor refused flags grantee =
    outcome.authority.refuse error
  events : outcome.events = granted.map fun uri => .granted uri grantee.uid flags.modes

/-- What a request that is refused has done and announced. -/
def Request.AnnouncesRefused (request : Request) (before : Authority) (error : Error)
    (outcome : Authority.Outcome Unit) : Prop :=
  match request with
  | .dispatch now caller intent receiver =>
      ∃ granted refused rest, intent.reachedContent = granted ++ refused :: rest ∧
        before.StopsAt now caller (.ofIntentFlags intent.flags) receiver granted refused error
          outcome
  | _ => outcome.events = []

namespace Grant

variable {grant : Grant} {bit : Fin 32}

theorem settled_of_durable (durable : bit ∈ grant.persisted) : grant.settled = some grant :=
  settled_eq_some_iff.2 ⟨isEmpty_eq_false_iff.2 ⟨bit, .inr (.inr durable)⟩, rfl⟩

end Grant

namespace GrantTable

variable {before after : GrantTable} {change : Grant → Option Grant} {key : GrantKey}
  {bit : Fin 32}

/-- A durable mode is lost with what a revision takes from the grant that had it. -/
theorem Revises.exists_lost (revises : after.Revises before change)
    (durable : bit ∈ before.modesAt Grant.persisted key)
    (gone : bit ∉ after.modesAt Grant.persisted key) :
    ∃ grant ∈ before.grants, grant.key = key ∧ bit ∈ grant.persisted ∧
      ∀ left, change grant = some left → bit ∉ left.persisted := by
  rcases mem_modesAt.1 durable with ⟨grant, found, durable⟩
  rcases find?_eq_some_iff.1 found with ⟨member, keyed⟩
  refine ⟨grant, member, keyed, durable, ?_⟩
  intro left changed kept
  apply gone
  refine mem_modesAt.2 ⟨left, ?_, kept⟩
  rw [revises key, show before.find? key = some grant from found, Option.bind_some, changed]
  rfl

end GrantTable

namespace Authority

variable {authority : Authority} {now : Timestamp} {grantor grantee : Identity} {uri : Uri}
  {modes : Modes} {flags : GrantFlags} {key : GrantKey} {bit : Fin 32} {uid : Nat}

/-- A mode stands among what the user of a key has made durable. -/
def Shows (authority : Authority) (key : GrantKey) (bit : Fin 32) : Prop :=
  ∃ kept ∈ authority.persistedBy key.grantee, kept.key = key ∧ bit ∈ kept.modes

instance (authority : Authority) (key : GrantKey) (bit : Fin 32) :
    Decidable (authority.Shows key bit) :=
  inferInstanceAs (Decidable (∃ kept ∈ authority.persistedBy key.grantee, _))

theorem shows_iff : authority.Shows key bit ↔
    ∃ kept, authority.table.record? key = some kept ∧ bit ∈ kept.modes := by
  constructor
  · rintro ⟨kept, listed, rfl, shown⟩
    exact ⟨kept, (mem_persistedBy_iff.1 listed).1, shown⟩
  · rintro ⟨kept, record, shown⟩
    have keyed := GrantTable.key_of_record? record
    subst keyed
    exact ⟨kept, mem_persistedBy_iff.2 ⟨record, rfl⟩, rfl, shown⟩

theorem shows_iff_mem_modesAt :
    authority.Shows key bit ↔ bit ∈ authority.table.modesAt Grant.persisted key := by
  rw [shows_iff, GrantTable.mem_modesAt]
  constructor
  · rintro ⟨kept, record, shown⟩
    rcases Option.bind_eq_some_iff.1 record with ⟨grant, found, made⟩
    rcases Grant.toPersisted?_eq_some_iff.1 made with ⟨_, rfl⟩
    exact ⟨grant, found, shown⟩
  · rintro ⟨grant, found, durable⟩
    have nonempty : grant.persisted.isEmpty = false :=
      FlagSet.isEmpty_eq_false_iff.2 ⟨bit, durable⟩
    have made := Grant.toPersisted?_eq_some_iff.2 ⟨nonempty, rfl⟩
    exact ⟨_, Option.bind_eq_some_iff.2 ⟨grant, found, made⟩, durable⟩

/-- A request takes access and makes the grant of a key transient again, since there were too many.
-/
def Evicts (authority : Authority) (request : Request) (key : GrantKey) : Prop :=
  match request with
  | .take now grantee uri modes =>
      (authority.take now grantee uri modes).answer.isOk = true ∧
        key ∈ authority.victims now grantee.uid uri modes
  | _ => False

/-! ## What is left of one grant -/

variable {grant : Grant} {user : Option Nat} {victims : List GrantKey}

theorem mem_modes_of_lost_revoking (durable : bit ∈ grant.persisted)
    (lost : ∀ left, afterRevoking uri modes user grant = some left → bit ∉ left.persisted) :
    isRevoked uri modes user grant = true ∧ bit ∈ modes := by
  by_cases revoked : isRevoked uri modes user grant = true
  · refine ⟨revoked, ?_⟩
    by_contra spared
    have left : bit ∈ (grant.without modes).persisted := FlagSet.mem_sdiff.2 ⟨durable, spared⟩
    apply lost (grant.without modes) ?_ left
    rw [afterRevoking, if_pos revoked, Grant.settled_of_durable left]
  · apply absurd durable
    apply lost
    rw [afterRevoking, if_neg revoked]

theorem mem_modes_of_lost_releasing (durable : bit ∈ grant.persisted)
    (lost : ∀ left, afterReleasing uid uri modes grant = some left → bit ∉ left.persisted) :
    grant.grantee = uid ∧ grant.uri = uri ∧ bit ∈ modes := by
  by_cases released : grant.grantee = uid ∧ grant.uri = uri ∧
    grant.persisted.intersects modes = true
  · refine ⟨released.1, released.2.1, ?_⟩
    by_contra spared
    have left : bit ∈ (grant.release modes).persisted := FlagSet.mem_sdiff.2 ⟨durable, spared⟩
    apply lost (grant.release modes) ?_ left
    rw [afterReleasing, if_pos released, Grant.settled_of_durable left]
  · apply absurd durable
    apply lost
    rw [afterReleasing, if_neg released]

theorem mem_persisted_promote (durable : bit ∈ grant.persisted) :
    bit ∈ (grant.promote modes now).persisted :=
  FlagSet.mem_union.2 (.inl durable)

theorem mem_victims_of_lost_taking (durable : bit ∈ grant.persisted)
    (lost : ∀ left, afterTaking uid uri modes now victims grant = some left →
      bit ∉ left.persisted) : grant.key ∈ victims := by
  by_contra spared
  by_cases promoted : isPromoted uid uri modes grant = true
  · apply lost (grant.promote modes now) ?_ (mem_persisted_promote durable)
    have spared : (grant.promote modes now).key ∉ victims := spared
    rw [afterTaking, if_pos promoted, afterEvicting, if_neg spared]
  · apply lost grant ?_ durable
    rw [afterTaking, if_neg promoted, afterEvicting, if_neg spared]

/-! ## Requests -/

theorem withdraws_of_revoke (shown : authority.Shows key bit)
    (gone : ¬ (authority.revoke uri modes user).authority.Shows key bit) :
    ∃ event ∈ (authority.revoke uri modes user).events, event.Withdraws key bit := by
  rw [shows_iff_mem_modesAt] at shown gone
  rw [table_revoke] at gone
  rcases revises_revoked.exists_lost shown gone with ⟨grant, member, rfl, durable, lost⟩
  rcases mem_modes_of_lost_revoking durable lost with ⟨revoked, revokedBit⟩
  have some : authority.revocable uri modes user ≠ [] :=
    List.ne_nil_of_mem (mem_revocable.2 ⟨member, revoked⟩)
  refine ⟨.revoked uri user modes, ?_, isBeneath_of_isRevoked revoked, ?_, revokedBit⟩
  · simp [revoke, some]
  · simp only [isRevoked, Bool.and_eq_true, Option.all_eq_true, decide_eq_true_eq] at revoked
    exact revoked.1.2

/-- If taking access cannot be saved, each durable mode is put back, so what is lost was evicted. -/
theorem evicts_of_take (shown : authority.Shows key bit)
    (gone : ¬ (authority.take now grantee uri modes).authority.Shows key bit) :
    (authority.take now grantee uri modes).answer.isOk = true ∧
      key ∈ authority.victims now grantee.uid uri modes := by
  rw [shows_iff_mem_modesAt] at shown gone
  rcases authority.take_cases now grantee uri modes with
    ⟨error, after, _⟩ | ⟨_, ⟨_, after⟩ | ⟨_, after⟩⟩
  · rw [after] at gone
    exact absurd shown gone
  · rw [after] at gone
    rcases revises_taken.exists_lost shown gone with ⟨grant, _, rfl, durable, lost⟩
    refine ⟨?_, mem_victims_of_lost_taking durable lost⟩
    rw [after]
    rfl
  · rw [after] at gone
    rcases revises_rolledBack.exists_lost shown gone with ⟨grant, _, rfl, durable, lost⟩
    -- the rollback leaves the grant as it was, or as it was made durable on the way
    have kept := lost _ rfl
    rw [afterRollback] at kept
    split at kept
    · exact absurd (mem_persisted_promote durable) kept
    · exact absurd durable kept

theorem withdraws_of_release (shown : authority.Shows key bit)
    (gone : ¬ (authority.release grantee uri modes).authority.Shows key bit) :
    ∃ event ∈ (authority.release grantee uri modes).events, event.Withdraws key bit := by
  rw [shows_iff_mem_modesAt] at shown gone
  rcases authority.release_cases grantee uri modes with
    ⟨error, after, _⟩ | ⟨_, ⟨_, after⟩ | ⟨_, after⟩⟩
  · rw [after] at gone
    exact absurd shown gone
  · rw [after] at gone
    rcases revises_released.exists_lost shown gone with ⟨grant, _, rfl, durable, lost⟩
    rcases mem_modes_of_lost_releasing durable lost with ⟨user, rfl, released⟩
    refine ⟨.released grant.uri grantee.uid modes, ?_, Uri.isBeneath_self, user.symm, released⟩
    rw [after]
    exact .head _
  · rw [after] at gone
    rcases revises_unreleased.exists_lost shown gone with ⟨grant, _, rfl, durable, lost⟩
    exact absurd durable (lost grant rfl)

/-- What is not saved leaves the modes of all records alone. -/
theorem shows_of_unsaved {request : Request} (unsaved : authority.saves request = false)
    (running : request ≠ .reload) (shown : authority.Shows key bit) :
    (authority.perform request).authority.Shows key bit := by
  rcases shows_iff.1 shown with ⟨kept, record, shown⟩
  have after : (authority.perform request).authority.table.record? key = _ :=
    authority.record?_perform request unsaved running
  rw [record, Option.map_some] at after
  have same : ((authority.delegations request).foldl Delegation.renew kept).modes = kept.modes :=
    congrArg Prod.fst (substance_foldl_renew _ kept)
  rw [← same] at shown
  exact shows_iff.2 ⟨_, after, shown⟩

/-- What takes a durable mode away says so, or evicts it. -/
theorem withdraws_or_evicts {request : Request} (running : request ≠ .reload)
    (shown : authority.Shows key bit)
    (gone : ¬ (authority.perform request).authority.Shows key bit) :
    (∃ event ∈ (authority.perform request).events, event.Withdraws key bit) ∨
      authority.Evicts request key := by
  have saves : authority.saves request = true := by
    by_contra unsaved
    exact gone (shows_of_unsaved (Bool.eq_false_iff.2 unsaved) running shown)
  cases request with
  | revoke uri modes user =>
      left
      exact withdraws_of_revoke shown gone
  | take now grantee uri modes =>
      right
      exact evicts_of_take shown gone
  | release grantee uri modes =>
      left
      exact withdraws_of_release shown gone
  | _ => cases saves

theorem not_shows_of_evicts {request : Request} (evicts : authority.Evicts request key) :
    ¬ (authority.perform request).authority.Shows key bit := by
  cases request with
  | take now grantee uri modes =>
      rw [shows_iff, perform, table_take evicts.1, record?_taken, if_pos evicts.2]
      rintro ⟨kept, record, _⟩
      cases record
  | _ => cases evicts

theorem events_take (taken : (authority.take now grantee uri modes).answer.isOk = true) :
    (authority.take now grantee uri modes).events = [.persisted uri grantee.uid modes] := by
  rcases authority.take_cases now grantee uri modes with
    ⟨_, after, _⟩ | ⟨_, ⟨_, after⟩ | ⟨_, after⟩⟩
  · rw [after] at taken
    cases taken
  · rw [after]
  · rw [after] at taken
    cases taken

/-- If granting different URIs is refused, it stops at one of them. -/
theorem stopsAt_of_grantEach {uris : List Uri} {error : Error} (nodup : uris.Nodup)
    (refused : (authority.grantEach now grantor flags grantee uris).answer = .error error) :
    ∃ granted first rest, uris = granted ++ first :: rest ∧
      authority.StopsAt now grantor flags grantee granted first error
        (authority.grantEach now grantor flags grantee uris).withoutAnswer := by
  have inOrder : authority.GrantsInOrder now grantor flags grantee uris _ :=
    grantsInOrder_grantEach uris authority
  generalize authority.grantEach now grantor flags grantee uris = outcome at inOrder refused
  cases inOrder with
  | granted _ => cases refused
  | refused split all fault =>
      cases refused
      have distinct := (List.nodup_append.1 (split ▸ nodup)).1
      exact ⟨_, _, _, split, ⟨_, all, all.find?_of_mem distinct⟩, fault, all.events_eq⟩

theorem error_of_withoutAnswer {α : Type} {outcome : Outcome α} {error : Error}
    (refused : outcome.withoutAnswer.answer = .error error) : outcome.answer = .error error := by
  rcases outcome with ⟨answer | answer, _, _⟩
  · cases refused
    rfl
  · cases refused

theorem announcesRefused {request : Request} {error : Error}
    (refused : (authority.perform request).answer = .error error) :
    request.AnnouncesRefused authority error (authority.perform request) := by
  cases request with
  | grant now grantor uri flags grantee =>
      have refused := error_of_withoutAnswer refused
      rcases authority.grant_cases now grantor uri flags grantee with
        ⟨_, _, after⟩ | ⟨_, after⟩
      · exact congrArg Outcome.events after
      · rw [after] at refused
        cases refused
  | dispatch now caller intent receiver =>
      have refused := error_of_withoutAnswer refused
      simp only [perform, Request.AnnouncesRefused]
      simp only [dispatch] at refused ⊢
      split at refused
      · cases refused
      · rename_i some
        rw [if_neg some]
        exact stopsAt_of_grantEach intent.isItinerary_reachedContent.nodup refused
  | take now grantee uri modes =>
      rcases authority.take_cases now grantee uri modes with
        ⟨_, after, _⟩ | ⟨_, ⟨_, after⟩ | ⟨_, after⟩⟩
      · exact congrArg Outcome.events after
      · rw [perform, after] at refused
        cases refused
      · exact congrArg Outcome.events after
  | release grantee uri modes =>
      rcases authority.release_cases grantee uri modes with
        ⟨_, after, _⟩ | ⟨_, ⟨_, after⟩ | ⟨_, after⟩⟩
      · exact congrArg Outcome.events after
      · rw [perform, after] at refused
        cases refused
      · exact congrArg Outcome.events after
  | _ => cases refused

/-- In a history without restarts, a durable mode that is not there any more was withdrawn by an
event of some request, or evicted by one. -/
theorem withdrawn_or_evicted_run {requests : List Request}
    (running : ∀ request ∈ requests, request ≠ .reload) (shown : authority.Shows key bit)
    (gone : ¬ (authority.run requests).Shows key bit) :
    ∃ earlier request later, requests = earlier ++ request :: later ∧
      ((∃ event ∈ ((authority.run earlier).perform request).events, event.Withdraws key bit) ∨
        (authority.run earlier).Evicts request key) := by
  induction requests generalizing authority with
  | nil => exact absurd shown gone
  | cons request requests ih =>
      by_cases still : (authority.perform request).authority.Shows key bit
      · have runningLater : ∀ other ∈ requests, other ≠ .reload := by
          intro other member
          exact running other (.tail _ member)
        rcases ih runningLater still gone with ⟨earlier, last, later, rfl, withdrawn⟩
        exact ⟨request :: earlier, last, later, rfl, withdrawn⟩
      · exact ⟨[], request, requests, rfl,
          withdraws_or_evicts (running request (.head _)) shown still⟩

/-- Whatever has happened to an authority, a request that takes a durable mode away announces that
it is withdrawn, or evicts it. A request that is refused announces nothing, unless it delivers an
intent: then it has granted the URIs before the first one that could not be granted, these grants are
left in place, and they are all that is announced. Reloading is not a request to an authority but
makes a new one, which nobody follows yet. -/
theorem perform_announces (start : Authority) (earlier : List Request) (request : Request)
    (running : request ≠ .reload) :
    let before := start.run earlier
    let outcome := before.perform request
    (∀ key bit, before.Shows key bit → ¬ outcome.authority.Shows key bit →
        (∃ event ∈ outcome.events, event.Withdraws key bit) ∨ before.Evicts request key) ∧
      ∀ error, outcome.answer = .error error → request.AnnouncesRefused before error outcome := by
  intro before outcome
  refine ⟨?_, fun error refused => announcesRefused refused⟩
  intro key bit shown gone
  exact withdraws_or_evicts running shown gone

/-- The note with something in its clip that no provider serves. -/
def Notes.letter : Intent :=
  { Intent.empty with
    data := some Notes.note
    flags := ⟨0x1⟩
    clip := some ⟨none, [], [⟨none, some ⟨some Uri.contentScheme, .hierarchical (some "mail") "/1"
      none, none⟩, none⟩]⟩ }

/-- What the viewer releases again is announced. A letter that cannot be delivered stops at the mail.
-/
theorem releasing_note_is_announced :
    let before := (Notes.start 1).run Notes.keepingNote
    let request := Request.release Notes.viewer Notes.note Modes.read
    let outcome := before.perform request
    let sending := Request.dispatch (Notes.moment 3) Notes.owner Notes.letter Notes.viewer
    let error := Error.notFound (.provider "mail")
    request ≠ .reload ∧ before.Shows Notes.kept.key 0 ∧ ¬ outcome.authority.Shows Notes.kept.key 0 ∧
      (∃ event ∈ outcome.events, event.Withdraws Notes.kept.key 0) ∧
        (before.perform sending).answer = .error error ∧
          sending.AnnouncesRefused before error (before.perform sending) := by
  intro before request outcome sending error
  have running : request ≠ .reload := Request.noConfusion
  have sendingRuns : sending ≠ .reload := Request.noConfusion
  have shown : before.Shows Notes.kept.key 0 := by decide +kernel
  have gone : ¬ outcome.authority.Shows Notes.kept.key 0 := by decide +kernel
  have refused : (before.perform sending).answer = .error error := by decide +kernel
  refine ⟨running, shown, gone, ?_, refused, ?_⟩
  · rcases (perform_announces (Notes.start 1) Notes.keepingNote request running).1 _ _ shown gone
      with withdrawn | evicted
    · exact withdrawn
    · cases evicted
  · exact (perform_announces (Notes.start 1) Notes.keepingNote sending sendingRuns).2 error refused

/-- A viewer who can make one grant durable loses the note without a word by taking the draft, and
a letter that cannot be delivered announces that the note was shared. -/
theorem keeping_draft_is_silent_about_note :
    let before := (Notes.start 1).run Notes.keepingNote
    let taken := before.perform (.take (Notes.moment 3) Notes.viewer Notes.draft Modes.read)
    let delivered := before.perform
      (.dispatch (Notes.moment 3) Notes.owner Notes.letter Notes.viewer)
    (before.Shows Notes.kept.key 0 ∧ ¬ taken.authority.Shows Notes.kept.key 0 ∧
        ∀ event ∈ taken.events, ¬ event.Withdraws Notes.kept.key 0) ∧
      delivered.answer.isOk = false ∧
        delivered.events = [.granted Notes.note Notes.viewer.uid Modes.read] := by
  intro before taken delivered
  have succeeds : (before.take (Notes.moment 3) Notes.viewer Notes.draft Modes.read).answer.isOk =
      true :=
    isOk_take_iff.2 ⟨by decide +kernel, by decide +kernel⟩
  let promoted := before.promoted (Notes.moment 3) Notes.viewer.uid Notes.draft Modes.read
  have ordered : ((promoted.table.grants.filter fun grant =>
      grant.grantee = Notes.viewer.uid).filterMap Grant.toPersisted?).Pairwise
        fun left right => left.precedes right = true := by
    decide +kernel
  have victim : Notes.kept.key ∈
      before.victims (Notes.moment 3) Notes.viewer.uid Notes.draft Modes.read := by
    rw [victims, overLimit, GrantTable.persisted_of_pairwise ordered]
    decide +kernel
  refine ⟨⟨by decide +kernel, not_shows_of_evicts ⟨succeeds, victim⟩, ?_⟩, by decide +kernel,
    by decide +kernel⟩
  intro event announced
  rw [show taken.events = [_] from events_take succeeds, List.mem_singleton] at announced
  subst announced
  exact id

end Authority

end IntentRouting
