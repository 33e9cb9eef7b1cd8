import IntentRouting.Permission.History
import IntentRouting.Proofs.Permission.Access
import IntentRouting.Proofs.Permission.Revision
import IntentRouting.Proofs.Uri.Beneath

/-!
# What a grant passes on

A grant adds its modes to one key, so it adds access to one URI, or to everything beneath one, and
to nothing else (`Authority.check_granted_iff`). What it adds is compared here with what the grantor
holds.

A grantor has to hold the modes on the URI of the grant, and on that URI alone a grant passes
nothing on that was not held. Nothing asks what the grantor holds beneath the URI. A grant for
everything beneath it passes on more than the grantor has if the grantor holds a mode by a grant for
exactly that URI, and only then (`Authority.grant_passes_on_iff`).
-/

namespace IntentRouting

namespace Authority

variable {authority : Authority} {now : Timestamp} {grantor grantee caller : Identity}
  {uri target : Uri} {flags : GrantFlags} {bit : Fin 32} {uid : Nat}

theorem mem_effective_widened : bit ∈ (authority.widened now grantor uri flags grantee).effective ↔
    bit ∈ flags.modes ∨ bit ∈ authority.table.effectiveAt ⟨grantee.uid, uri, flags.isPrefix⟩ := by
  cases found : authority.table.find? ⟨grantee.uid, uri, flags.isPrefix⟩ with
  | none => simp [widened, GrantTable.effectiveAt, found, Grant.widen, Grant.effective, Grant.ofKey]
  | some grant =>
      simp only [widened, GrantTable.effectiveAt, found, Grant.widen, Grant.effective,
        Option.getD_some, FlagSet.mem_union]
      rw [or_right_comm, or_comm]

theorem mem_effectiveAt_granted {key : GrantKey} :
    bit ∈ (authority.granted now grantor uri flags grantee).table.effectiveAt key ↔
      bit ∈ authority.table.effectiveAt key ∨
        key = ⟨grantee.uid, uri, flags.isPrefix⟩ ∧ bit ∈ flags.modes := by
  by_cases same : key = ⟨grantee.uid, uri, flags.isPrefix⟩
  · have found : (authority.granted now grantor uri flags grantee).table.find? key =
        some (authority.widened now grantor uri flags grantee) := by
      rw [granted, GrantTable.find?_put, key_widened, if_pos same]
    rw [GrantTable.effectiveAt, found]
    dsimp only
    rw [mem_effective_widened, or_comm, same]
    simp
  · have found : (authority.granted now grantor uri flags grantee).table.find? key =
        authority.table.find? key := by
      rw [granted, GrantTable.find?_put, key_widened, if_neg same]
    rw [GrantTable.effectiveAt, found, ← GrantTable.effectiveAt]
    simp [same]

/-- What a grant is about: its URI, or everything beneath it if such grants are respected. -/
def Reaches (authority : Authority) (uri : Uri) (flags : GrantFlags) (target : Uri) : Prop :=
  if flags.isPrefix then authority.settings.prefixGrants = true ∧ target.isBeneath uri = true
  else target = uri

theorem isGranted_granted_iff :
    (authority.granted now grantor uri flags grantee).IsGranted uid target bit ↔
      authority.IsGranted uid target bit ∨
        uid = grantee.uid ∧ bit ∈ flags.modes ∧ authority.Reaches uri flags target := by
  have settings :
      (authority.granted now grantor uri flags grantee).settings = authority.settings := rfl
  simp only [isGranted_iff, mem_effectiveAt_granted, settings]
  constructor
  · rintro ⟨key, user, covers, counts, held | ⟨rfl, asked⟩⟩
    · exact .inl ⟨key, user, covers, counts, held⟩
    · refine .inr ⟨user.symm, asked, ?_⟩
      simp only [GrantKey.covers] at covers
      simp only [Reaches]
      split <;> rename_i beneath
      · exact ⟨counts beneath, by simpa [beneath] using covers⟩
      · simpa [beneath, eq_comm] using covers
  · rintro (⟨key, user, covers, counts, held⟩ | ⟨rfl, asked, reaches⟩)
    · exact ⟨key, user, covers, counts, .inl held⟩
    · refine ⟨⟨grantee.uid, uri, flags.isPrefix⟩, rfl, ?_, ?_, .inr ⟨rfl, asked⟩⟩
      · simp only [Reaches] at reaches
        simp only [GrantKey.covers]
        split at reaches <;> rename_i beneath
        · simpa [beneath] using reaches.2
        · simp [beneath, reaches]
      · intro beneath
        rw [Reaches, if_pos beneath] at reaches
        exact reaches.1

/-- After a grant a caller may use what it could use before, and the grantee what the grant is
about. -/
theorem check_granted_iff (content : uri.isContent = true) :
    (authority.granted now grantor uri flags grantee).check caller target (.single bit) = true ↔
      authority.check caller target (.single bit) = true ∨
        caller.uid = grantee.uid ∧ bit ∈ flags.modes ∧ authority.Reaches uri flags target := by
  have owner : (authority.granted now grantor uri flags grantee).holdsOwnerAccess caller target =
      authority.holdsOwnerAccess caller target := rfl
  have reached : authority.Reaches uri flags target → target.isContent = true := by
    intro reaches
    simp only [Reaches] at reaches
    split at reaches
    · rw [Uri.isContent_of_isBeneath reaches.2, content]
    · rw [reaches, content]
  rw [check_single_iff, check_single_iff, isGranted_granted_iff, owner]
  constructor
  · rintro (owns | ⟨content, held | passed⟩)
    · exact .inl (.inl owns)
    · exact .inl (.inr ⟨content, held⟩)
    · exact .inr passed
  · rintro ((owns | ⟨content, held⟩) | passed)
    · exact .inl owns
    · exact .inr ⟨content, .inl held⟩
    · exact .inr ⟨reached passed.2.2, .inr passed⟩

/-- A grant that succeeds lets its grantee use its modes on what it is about, and otherwise
everybody may use what everybody could use before. A grant that fails changes nothing. -/
theorem grant_adds_exactly (authority : Authority) (now : Timestamp) (grantor : Identity)
    (uri : Uri) (flags : GrantFlags) (grantee : Identity) :
    let outcome := authority.grant now grantor uri flags grantee
    (outcome.answer.isOk = true → ∀ caller target bit,
        outcome.authority.check caller target (.single bit) = true ↔
          authority.check caller target (.single bit) = true ∨
            caller.uid = grantee.uid ∧ bit ∈ flags.modes ∧
              (flags.isPrefix = false ∧ target = uri ∨
                flags.isPrefix = true ∧ authority.settings.prefixGrants = true ∧
                  target.isBeneath uri = true)) ∧
      (outcome.answer.isOk = false → outcome.authority = authority ∧ outcome.events = []) := by
  intro outcome
  rcases authority.grant_cases now grantor uri flags grantee with
    ⟨error, _, after⟩ | ⟨allowed, after⟩
  · have failed : outcome.answer.isOk = false := by
      rw [show outcome = authority.refuse error from after]
      rfl
    refine ⟨fun succeeds => absurd succeeds (by simp [failed]), fun _ => ?_⟩
    rw [show outcome = authority.refuse error from after]
    exact ⟨rfl, rfl⟩
  · have succeeded : outcome.answer.isOk = true := by
      rw [show outcome = _ from after]
      rfl
    have content : uri.isContent = true := (grantFault?_eq_none_iff.1 allowed).2.1
    refine ⟨fun _ caller target bit => ?_, fun fails => absurd fails (by simp [succeeded])⟩
    rw [show outcome = _ from after, check_granted_iff content]
    cases beneath : flags.isPrefix <;> simp [Reaches, beneath]

/-- Sharing a note with everything beneath it adds just that, and who holds nothing cannot share it.
-/
theorem sharing_beneath_note_adds_exactly :
    let before := (Notes.start 512).run [.register Notes.provider]
    let flags := flagsFor Modes.read true
    let shared := before.grant (Notes.moment 1) Notes.owner Notes.note flags Notes.viewer
    let refused := before.grant (Notes.moment 1) Notes.viewer Notes.note flags Notes.viewer
    shared.answer.isOk = true ∧ refused.answer.isOk = false ∧
      (shared.authority.check Notes.viewer Notes.draft (.single 0) = true ↔
        before.check Notes.viewer Notes.draft (.single 0) = true ∨
          Notes.viewer.uid = Notes.viewer.uid ∧ 0 ∈ flags.modes ∧
            (flags.isPrefix = false ∧ Notes.draft = Notes.note ∨
              flags.isPrefix = true ∧ before.settings.prefixGrants = true ∧
                Notes.draft.isBeneath Notes.note = true)) ∧
      refused.authority = before ∧ refused.events = [] := by
  intro before flags shared refused
  have succeeds : shared.answer.isOk = true := by decide +kernel
  have fails : refused.answer.isOk = false := by decide +kernel
  have added := (grant_adds_exactly before _ _ _ _ _).1 succeeds Notes.viewer Notes.draft 0
  exact ⟨succeeds, fails, added, (grant_adds_exactly before _ _ _ _ _).2 fails⟩

/-! ## What is held beneath a URI -/

/-- A caller holds a flag on a URI and on everything beneath it. -/
def HoldsBeneath (authority : Authority) (caller : Identity) (uri : Uri) (bit : Fin 32) : Prop :=
  authority.holdsOwnerAccess caller uri = true ∨
    authority.settings.prefixGrants = true ∧ bit ∈ authority.prefixModes caller.uid uri

theorem HoldsBeneath.check (holds : authority.HoldsBeneath caller uri bit)
    (content : uri.isContent = true) (beneath : target.isBeneath uri = true) :
    authority.check caller target (.single bit) = true := by
  rw [check_single_iff]
  rcases holds with owns | ⟨respected, held⟩
  · exact .inl (holdsOwnerAccess_of_isBeneath beneath ▸ owns)
  · rcases mem_prefixModes.1 held with ⟨grant, member, prefixed, user, covers, held⟩
    have above : uri.isBeneath grant.uri = true := by simpa [Grant.covers, prefixed] using covers
    have content := (Uri.isContent_of_isBeneath beneath).trans content
    refine .inr ⟨content, grant, member, user, ?_, fun _ => respected, held⟩
    simpa [Grant.covers, prefixed] using Uri.isBeneath_trans beneath above

/-- Beneath a URI there is one on which nobody holds a flag who does not hold it on all that lies
beneath. -/
theorem exists_holdsBeneath_of_check (authority : Authority) (uri : Uri) :
    ∃ target : Uri, target.isBeneath uri = true ∧ target ≠ uri ∧
      ∀ caller bit, authority.check caller target (.single bit) = true →
        authority.HoldsBeneath caller uri bit := by
  rcases uri.exists_under_apart (uri :: authority.table.grants.map Grant.uri) with ⟨segment, apart⟩
  refine ⟨uri.under segment, Uri.isBeneath_under, (apart uri (.head _)).1, ?_⟩
  intro caller bit allowed
  rcases check_single_iff.1 allowed with owns | ⟨content, grant, member, user, covers, counts, held⟩
  · exact .inl (holdsOwnerAccess_of_isBeneath Uri.isBeneath_under ▸ owns)
  · rcases apart grant.uri (.tail _ (List.mem_map_of_mem member)) with ⟨different, upward⟩
    cases beneath : grant.beneath with
    | false =>
        have same : grant.uri = uri.under segment := by simpa [Grant.covers, beneath] using covers
        exact absurd same.symm different
    | true =>
        have above : uri.isBeneath grant.uri = true :=
          upward (by simpa [Grant.covers, beneath] using covers)
        refine .inr ⟨counts beneath, mem_prefixModes.2 ⟨grant, member, beneath, user, ?_, held⟩⟩
        simpa [Grant.covers, beneath] using above

/-! ## What is passed on -/

theorem isContent_of_grantFault? (allowed : authority.grantFault? grantor uri flags.modes = none) :
    uri.isContent = true :=
  (grantFault?_eq_none_iff.1 allowed).2.1

/-- A grantor holds what it grants on the URI of the grant. -/
theorem check_of_grantFault? (allowed : authority.grantFault? grantor uri flags.modes = none)
    (asked : bit ∈ flags.modes) : authority.check grantor uri (.single bit) = true :=
  check_single_of_check (grantFault?_eq_none_iff.1 allowed).2.2.2 asked

/-- A grant lets the grantee use nothing that neither it nor the grantor could use before, if and
only if what it adds beneath its URI is held there by one of them. -/
theorem grant_passes_on_iff
    (succeeds : (authority.grant now grantor uri flags grantee).answer.isOk = true) :
    (∀ target bit,
        (authority.grant now grantor uri flags grantee).authority.check grantee target
            (.single bit) = true →
          authority.check grantee target (.single bit) = true ∨
            authority.check grantor target (.single bit) = true) ↔
      (flags.isPrefix = true → authority.settings.prefixGrants = true → ∀ bit ∈ flags.modes,
        authority.HoldsBeneath grantor uri bit ∨ authority.HoldsBeneath grantee uri bit) := by
  rcases authority.grant_cases now grantor uri flags grantee with
    ⟨error, _, refused⟩ | ⟨allowed, granted⟩
  · rw [refused] at succeeds
    exact absurd succeeds (by simp [refuse, Except.isOk, Except.toBool])
  · have content := isContent_of_grantFault? allowed
    rw [granted]
    constructor
    · intro nothing beneath respected bit asked
      rcases authority.exists_holdsBeneath_of_check uri with ⟨target, below, _, holds⟩
      have reaches : authority.Reaches uri flags target := by
        rw [Reaches, if_pos beneath]
        exact ⟨respected, below⟩
      have added : (authority.granted now grantor uri flags grantee).check grantee target
          (.single bit) = true :=
        (check_granted_iff content).2 (.inr ⟨rfl, asked, reaches⟩)
      rcases nothing target bit added with held | held
      · exact .inr (holds grantee bit held)
      · exact .inl (holds grantor bit held)
    · intro covered target bit after
      rcases (check_granted_iff content).1 after with before | ⟨_, asked, reaches⟩
      · exact .inl before
      · simp only [Reaches] at reaches
        split at reaches
        · rename_i beneath
          rcases covered beneath reaches.1 bit asked with holds | holds
          · exact .inr (holds.check content reaches.2)
          · exact .inl (holds.check content reaches.2)
        · rw [reaches]
          exact .inr (check_of_grantFault? allowed asked)

/-- The owner of a note holds what lies beneath it, so sharing the note with everything beneath it
passes on nothing else. -/
theorem owner_passes_on_what_it_holds :
    let before := (Notes.start 512).run [.register Notes.provider]
    let outcome := before.grant (Notes.moment 1) Notes.owner Notes.note
      (flagsFor Modes.read true) Notes.viewer
    outcome.answer.isOk = true ∧
      ∀ target bit, outcome.authority.check Notes.viewer target (.single bit) = true →
        before.check Notes.viewer target (.single bit) = true ∨
          before.check Notes.owner target (.single bit) = true := by
  refine ⟨by decide +kernel, (grant_passes_on_iff (by decide +kernel)).2 ?_⟩
  intro _ _ bit _
  exact .inl (.inl (by decide +kernel))

/-- A viewer with whom only the note was shared can share it with itself together with everything
beneath it. -/
theorem viewer_widens_its_access :
    let before := (Notes.start 512).run [.register Notes.provider,
      Notes.sharing (flagsFor Modes.read false)]
    let outcome := before.grant (Notes.moment 2) Notes.viewer Notes.note
      (flagsFor Modes.read true) Notes.viewer
    outcome.answer.isOk = true ∧
      outcome.authority.check Notes.viewer Notes.draft (.single 0) = true ∧
      before.check Notes.viewer Notes.draft (.single 0) = false := by
  decide +kernel

end Authority

end IntentRouting
