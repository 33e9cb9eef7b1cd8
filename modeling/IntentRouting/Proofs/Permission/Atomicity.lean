import IntentRouting.Proofs.Permission.Revision

/-!
# Releasing as a whole or not at all

Releasing changes up to two grants, the one of the user for the URI and the one for everything
beneath it, and removes those that it makes empty, before anything is saved. If saving fails, what
was changed is changed back and what was removed is put in again, in two different ways
(`Authority.restore`). Both give the grants back as they were, because releasing takes away durable
and promised modes only, and the copies that are put back have them.

So a request to release either fails and leaves no trace, or it takes the modes from all grants that
have them among their durable ones, and the store knows no more about them than the table does.
-/

namespace IntentRouting

/-- What a grant has become that is left when modes were released. -/
structure Grant.IsReduced (left grant : Grant) (modes : Modes) : Prop where
  key : left.key = grant.key
  grantor : left.grantor = grant.grantor
  session : left.session = grant.session
  transient : left.transient = grant.transient
  persistable : ∀ bit, bit ∈ left.persistable ↔ bit ∈ grant.persistable ∧ bit ∉ modes
  persisted : ∀ bit, bit ∈ left.persisted ↔ bit ∈ grant.persisted ∧ bit ∉ modes
  grantedAt : left.grantedAt = grant.grantedAt
  /-- The moment is kept as long as something is durable. -/
  persistedAt : left.persistedAt = if left.persisted.isEmpty then none else grant.persistedAt

theorem Grant.isReduced_release (grant : Grant) (modes : Modes) :
    (grant.release modes).IsReduced grant modes := by
  refine ⟨rfl, rfl, rfl, rfl, ?_, ?_, rfl, rfl⟩
  · intro bit
    exact FlagSet.mem_sdiff
  · intro bit
    exact FlagSet.mem_sdiff

/-- Whether nothing would be left of a grant if modes were released. -/
def Grant.IsSpentBy (grant : Grant) (modes : Modes) : Prop :=
  ∀ bit, bit ∉ grant.transient ∧ (bit ∈ grant.persistable → bit ∈ modes) ∧
    (bit ∈ grant.persisted → bit ∈ modes)

theorem Grant.isEmpty_release_iff {grant : Grant} {modes : Modes} :
    (grant.release modes).isEmpty = true ↔ grant.IsSpentBy modes := by
  simp only [isEmpty, effective, release, Bool.and_eq_true, FlagSet.isEmpty_iff,
    FlagSet.mem_union, FlagSet.mem_sdiff, IsSpentBy]
  grind

namespace Authority

variable {authority : Authority} {grantee : Identity} {uid : Nat} {uri : Uri} {modes : Modes}
  {grant left : Grant}

/-- A grant of a user on a URI that has one of some modes among its durable ones. -/
structure IsReleasable (uid : Nat) (uri : Uri) (modes : Modes) (grant : Grant) : Prop where
  grantee : grant.grantee = uid
  uri : grant.uri = uri
  durable : ∃ bit ∈ modes, bit ∈ grant.persisted

theorem isReleasable_iff : IsReleasable uid uri modes grant ↔
    grant.grantee = uid ∧ grant.uri = uri ∧ grant.persisted.intersects modes = true := by
  rw [FlagSet.intersects_iff]
  constructor
  · rintro ⟨user, same, durable⟩
    exact ⟨user, same, durable⟩
  · rintro ⟨user, same, durable⟩
    exact ⟨user, same, durable⟩

theorem mem_releasable : grant ∈ authority.releasable uid uri modes ↔
    grant ∈ authority.table.grants ∧ IsReleasable uid uri modes grant := by
  rw [(selects_releasable authority uid uri modes).2, isReleasable_iff, decide_eq_true_iff]

theorem afterReleasing_of_isReleasable (releasable : IsReleasable uid uri modes grant) :
    afterReleasing uid uri modes grant = (grant.release modes).settled :=
  if_pos (isReleasable_iff.1 releasable)

theorem afterReleasing_of_not (spared : ¬ IsReleasable uid uri modes grant) :
    afterReleasing uid uri modes grant = some grant :=
  if_neg (mt isReleasable_iff.2 spared)

/-- Nothing that is left has one of the modes among its durable ones. -/
theorem not_isReleasable_of_afterReleasing
    (changed : afterReleasing uid uri modes grant = some left) :
    ¬ IsReleasable uid uri modes left := by
  intro again
  by_cases releasable : IsReleasable uid uri modes grant
  · rw [afterReleasing_of_isReleasable releasable] at changed
    rcases Grant.settled_eq_some_iff.1 changed with ⟨_, rfl⟩
    rcases again.durable with ⟨bit, asked, durable⟩
    exact (FlagSet.mem_sdiff.1 durable).2 asked
  · rw [afterReleasing_of_not releasable] at changed
    cases changed
    exact releasable again

/-- What a release that fails leaves. -/
structure IsUntouched (outcome : Outcome Unit) (before : Authority) : Prop where
  refused : ∃ error, outcome.answer = .error error
  grants : ∀ key, outcome.authority.table.find? key = before.table.find? key
  store : outcome.authority.store = before.store
  providers : outcome.authority.providers = before.providers
  settings : outcome.authority.settings = before.settings
  silent : outcome.events = []

theorem isUntouched_release (failed : (∀ grant ∈ authority.table.grants,
    ¬ IsReleasable grantee.uid uri modes grant) ∨ authority.store.failing = true) :
    IsUntouched (authority.release grantee uri modes) authority := by
  rcases authority.release_cases grantee uri modes with
    ⟨error, after, _⟩ | ⟨some, ⟨working, _⟩ | ⟨_, after⟩⟩
  · rw [after]
    exact ⟨⟨error, rfl⟩, fun _ => rfl, rfl, rfl, rfl, rfl⟩
  · exfalso
    rcases failed with none | failing
    · rcases List.exists_mem_of_ne_nil _ some with ⟨grant, selected⟩
      rcases mem_releasable.1 selected with ⟨member, releasable⟩
      exact none grant member releasable
    · rw [working] at failing
      cases failing
  · rw [after]
    refine ⟨⟨_, rfl⟩, ?_, rfl, rfl, rfl, rfl⟩
    intro key
    simpa using revises_unreleased key

/-- What a release that succeeds leaves. -/
structure IsReleasedBy (outcome : Outcome Unit) (before : Authority) (uid : Nat) (uri : Uri)
    (modes : Modes) : Prop where
  granted : outcome.answer = .ok ()
  /-- A grant without any of the modes among its durable ones is not changed. -/
  spared : ∀ grant ∈ before.table.grants, ¬ IsReleasable uid uri modes grant →
    outcome.authority.table.find? grant.key = some grant
  reduced : ∀ grant ∈ before.table.grants, IsReleasable uid uri modes grant →
    ¬ grant.IsSpentBy modes →
      ∃ left, outcome.authority.table.find? grant.key = some left ∧ left.IsReduced grant modes
  dropped : ∀ grant ∈ before.table.grants, IsReleasable uid uri modes grant →
    grant.IsSpentBy modes → outcome.authority.table.find? grant.key = none
  absent : ∀ key, before.table.find? key = none → outcome.authority.table.find? key = none
  /-- All that is durable is saved, and nothing else. -/
  saved : outcome.authority.store.records = outcome.authority.table.persisted fun _ => true
  forgotten : ∀ kept ∈ outcome.authority.store.records, kept.grantee = uid → kept.uri = uri →
    ∀ bit ∈ modes, bit ∉ kept.modes
  providers : outcome.authority.providers = before.providers
  settings : outcome.authority.settings = before.settings

theorem notMem_of_mem_persisted_released {kept : PersistedGrant}
    (member : kept ∈ (authority.released uid uri modes).persisted fun _ => true)
    (user : kept.grantee = uid) (same : kept.uri = uri) {bit : Fin 32} (asked : bit ∈ modes) :
    bit ∉ kept.modes := by
  intro durable
  rcases GrantTable.mem_persisted_iff.1 member with ⟨left, leftMember, _, made⟩
  rcases Grant.toPersisted?_eq_some_iff.1 made with ⟨_, rfl⟩
  rcases revises_released.mem_grants leftMember with ⟨grant, _, changed⟩
  exact not_isReleasable_of_afterReleasing changed ⟨user, same, bit, asked, durable⟩

theorem isReleasedBy_release (some : ∃ grant ∈ authority.table.grants,
    IsReleasable grantee.uid uri modes grant) (working : authority.store.failing = false) :
    IsReleasedBy (authority.release grantee uri modes) authority grantee.uid uri modes := by
  rcases some with ⟨grant, member, releasable⟩
  have selected := mem_releasable.2 ⟨member, releasable⟩
  rcases authority.release_cases grantee uri modes with
    ⟨_, _, none⟩ | ⟨_, ⟨_, after⟩ | ⟨failing, _⟩⟩
  · rw [none] at selected
    cases selected
  · rw [after]
    have left : ∀ grant ∈ authority.table.grants,
        (authority.released grantee.uid uri modes).find? grant.key =
          afterReleasing grantee.uid uri modes grant := by
      intro grant member
      rw [revises_released grant.key, GrantTable.mem_grants_iff.1 member, Option.bind_some]
    refine ⟨rfl, ?_, ?_, ?_, ?_, rfl, ?_, rfl, rfl⟩
    · intro grant member spared
      exact (left grant member).trans (afterReleasing_of_not spared)
    · intro grant member releasable something
      refine ⟨grant.release modes, ?_, grant.isReduced_release modes⟩
      apply (left grant member).trans
      rw [afterReleasing_of_isReleasable releasable, Grant.settled_eq_some_iff]
      exact ⟨Bool.eq_false_iff.2 (mt Grant.isEmpty_release_iff.1 something), rfl⟩
    · intro grant member releasable spent
      apply (left grant member).trans
      rw [afterReleasing_of_isReleasable releasable, Grant.settled,
        if_pos (Grant.isEmpty_release_iff.2 spent)]
    · intro key absent
      apply (revises_released key).trans
      rw [absent, Option.bind_none]
    · intro kept member user same bit asked
      exact notMem_of_mem_persisted_released member user same asked
  · rw [working] at failing
    cases failing

/-- After every history, releasing modes of a user on a URI fails and changes nothing if none of the
user's grants on the URI has one of them among its durable modes, or if the store cannot be written.
Otherwise it succeeds, takes the modes from exactly those grants, removes those of which nothing is
left, and saves what is durable then, so that the store has none of the modes for the user and the
URI any more. -/
theorem release_is_exact_and_atomic (place : Placement) (settings : PermissionSettings)
    (store : GrantStore) (requests : List Request) (grantee : Identity) (uri : Uri)
    (modes : Modes) :
    let before := (load place settings store).run requests
    let outcome := before.release grantee uri modes
    let someReleasable := ∃ grant ∈ before.table.grants, IsReleasable grantee.uid uri modes grant
    (¬ someReleasable ∨ before.store.failing = true → IsUntouched outcome before) ∧
      (someReleasable ∧ before.store.failing = false →
        IsReleasedBy outcome before grantee.uid uri modes) := by
  intro before outcome someReleasable
  constructor
  · rintro (none | failing)
    · apply isUntouched_release
      left
      intro grant member releasable
      exact none ⟨grant, member, releasable⟩
    · exact isUntouched_release (.inr failing)
  · rintro ⟨some, working⟩
    exact isReleasedBy_release some working

/-- A viewer has made its access to a note durable and has ended its process, and has got access to
everything beneath the note since then. -/
def Notes.keptAndShared : List Request :=
  [.register Notes.provider, Notes.sharing Notes.readToKeep,
    .take (Notes.moment 2) Notes.viewer Notes.note Modes.read, .exit Notes.viewer.pid,
    Notes.sharing (flagsFor Modes.read true)]

/-- When the viewer releases the note, the grant for the note is gone and the other one is spared.
If the store cannot be written, both are as they were. -/
theorem kept_note_is_released :
    let before := (load (fun _ _ => 0) ⟨1, true, 512⟩ .empty).run Notes.keptAndShared
    let failing := (load (fun _ _ => 0) ⟨1, true, 512⟩ .empty).run
      (Notes.keptAndShared ++ [.storeFails true])
    let outcome := before.release Notes.viewer Notes.note Modes.read
    let left := fun beneath =>
      outcome.authority.table.find? ⟨Notes.viewer.uid, Notes.note, beneath⟩
    (∃ grant ∈ before.table.grants, IsReleasable Notes.viewer.uid Notes.note Modes.read grant) ∧
      before.store.failing = false ∧ failing.store.failing = true ∧
      IsReleasedBy outcome before Notes.viewer.uid Notes.note Modes.read ∧ left false = none ∧
      (left true).map Grant.transient = some Modes.read ∧
      IsUntouched (failing.release Notes.viewer Notes.note Modes.read) failing := by
  intro before failing outcome left
  have some : ∃ grant ∈ before.table.grants,
      IsReleasable Notes.viewer.uid Notes.note Modes.read grant := by
    simp only [isReleasable_iff]
    decide +kernel
  have working : before.store.failing = false := by decide +kernel
  have fails : failing.store.failing = true := by decide +kernel
  have released := release_is_exact_and_atomic (fun _ _ => 0) ⟨1, true, 512⟩ .empty
    Notes.keptAndShared Notes.viewer Notes.note Modes.read
  have untouched := release_is_exact_and_atomic (fun _ _ => 0) ⟨1, true, 512⟩ .empty
    (Notes.keptAndShared ++ [.storeFails true]) Notes.viewer Notes.note Modes.read
  exact ⟨some, working, fails, released.2 ⟨some, working⟩, by decide +kernel, by decide +kernel,
    untouched.1 (.inr fails)⟩

end Authority

end IntentRouting
