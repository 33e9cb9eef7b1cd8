import IntentRouting.Proofs.Intent.Itinerary
import IntentRouting.Proofs.Permission.Invariant

/-!
# What a dispatch grants

A dispatch either grants nothing, because the flags of the intent ask neither for reading nor for
writing, or it grants what its flags ask for on the itinerary of the intent, one URI after the
other. It stops at the first URI that cannot be granted, and what was granted before stays. The
flags of the intent and the URIs at its places are all that a dispatch sees of it.
-/

namespace IntentRouting

section Flags

variable {flags : IntentFlags} {place : Fin 32}

theorem mem_modes_ofIntentFlags_iff :
    place ∈ (GrantFlags.ofIntentFlags flags).modes ↔
      place ∈ flags ∧ place ∈ IntentFlags.grantRead ∪ IntentFlags.grantWrite := by
  have named : ∀ place : Fin 32,
      place ∈ IntentFlags.grantMask ∧ place ∈ FlagSet.named GrantFlag.vocabulary ∧
          place ∈ FlagSet.named ModeFlag.vocabulary ↔
        place ∈ IntentFlags.grantRead ∪ IntentFlags.grantWrite := by
    decide
  rw [← named place]
  simp only [GrantFlags.modes, FlagSet.ofBits, GrantFlags.ofIntentFlags, IntentFlags.grants,
    FlagSet.mem_def, Inter.inter, BitVec.getLsbD_and, Bool.and_eq_true, and_assoc]

theorem isEmpty_modes_ofIntentFlags (flags : IntentFlags) :
    (GrantFlags.ofIntentFlags flags).modes.isEmpty = !flags.requestsGrant := by
  rw [Bool.eq_iff_iff, Bool.not_eq_true', ← Bool.not_eq_true, IntentFlags.requestsGrant,
    FlagSet.intersects_iff, FlagSet.isEmpty_iff]
  simp only [mem_modes_ofIntentFlags_iff, not_and, not_exists]
  exact forall_congr' fun _ => imp_not_comm

end Flags

namespace Authority

variable {authority after : Authority} {now : Timestamp} {grantor grantee : Identity}
  {flags : GrantFlags} {uris : List Uri} {grants : List Grant} {events : List Event}

/-- Granting some URIs, one after the other, each with the authority that the one before it left. -/
inductive GrantsAll (now : Timestamp) (grantor : Identity) (flags : GrantFlags)
    (grantee : Identity) : Authority → List Uri → List Grant → Authority → List Event → Prop
  | nil {authority : Authority} : GrantsAll now grantor flags grantee authority [] [] authority []
  | cons {authority next after : Authority} {uri : Uri} {uris : List Uri} {grant : Grant}
      {grants : List Grant} {events more : List Event}
      (granted : authority.grant now grantor uri flags grantee = ⟨.ok grant, next, events⟩)
      (rest : GrantsAll now grantor flags grantee next uris grants after more) :
      GrantsAll now grantor flags grantee authority (uri :: uris) (grant :: grants) after
        (events ++ more)

/-- The outcomes of granting some URIs in their order up to the first that cannot be granted. -/
inductive GrantsInOrder (now : Timestamp) (grantor : Identity) (flags : GrantFlags)
    (grantee : Identity) (authority : Authority) (uris : List Uri) : Outcome (List Grant) → Prop
  | granted {grants : List Grant} {after : Authority} {events : List Event}
      (all : GrantsAll now grantor flags grantee authority uris grants after events) :
      GrantsInOrder now grantor flags grantee authority uris ⟨.ok grants, after, events⟩
  | refused {earlier later : List Uri} {uri : Uri} {grants : List Grant} {after : Authority}
      {events : List Event} {error : Error} (split : uris = earlier ++ uri :: later)
      (all : GrantsAll now grantor flags grantee authority earlier grants after events)
      (fault : after.grant now grantor uri flags grantee = after.refuse error) :
      GrantsInOrder now grantor flags grantee authority uris ⟨.error error, after, events⟩

theorem eq_of_grant_eq {uri : Uri} {grant : Grant}
    (granted : authority.grant now grantor uri flags grantee = ⟨.ok grant, after, events⟩) :
    authority.widened now grantor uri flags grantee = grant ∧
      authority.granted now grantor uri flags grantee = after ∧
        [.granted uri grantee.uid flags.modes] = events := by
  rcases authority.grant_cases now grantor uri flags grantee with
    ⟨error, _, refused⟩ | ⟨_, outcome⟩
  · rw [refused] at granted
    cases granted
  · rw [outcome] at granted
    cases granted
    exact ⟨rfl, rfl, rfl⟩

/-- There is one grant for each URI. -/
theorem GrantsAll.keys_eq
    (all : authority.GrantsAll now grantor flags grantee uris grants after events) :
    grants.map Grant.key = uris.map fun uri => ⟨grantee.uid, uri, flags.isPrefix⟩ := by
  induction all with
  | nil => rfl
  | cons granted _ ih =>
      rw [List.map_cons, List.map_cons, ih, ← (eq_of_grant_eq granted).1, key_widened]

/-- What is announced of the grants is that they were made. -/
theorem GrantsAll.events_eq
    (all : authority.GrantsAll now grantor flags grantee uris grants after events) :
    events = uris.map fun uri => .granted uri grantee.uid flags.modes := by
  induction all with
  | nil => rfl
  | @cons authority _ _ uri _ _ _ _ _ granted _ ih =>
      rw [← (eq_of_grant_eq granted).2.2, List.map_cons, ih]
      rfl

theorem GrantsAll.find?_of_not_mem {key : GrantKey}
    (all : authority.GrantsAll now grantor flags grantee uris grants after events)
    (elsewhere : ∀ uri ∈ uris, key ≠ ⟨grantee.uid, uri, flags.isPrefix⟩) :
    after.table.find? key = authority.table.find? key := by
  induction all with
  | nil => rfl
  | @cons authority _ _ uri _ _ _ _ _ granted _ ih =>
      rw [List.forall_mem_cons] at elsewhere
      rw [ih elsewhere.2, ← (eq_of_grant_eq granted).2.1, Authority.granted, GrantTable.find?_put,
        key_widened, if_neg elsewhere.1]

/-- The grants of different URIs are in place afterwards, as they were made. -/
theorem GrantsAll.find?_of_mem
    (all : authority.GrantsAll now grantor flags grantee uris grants after events)
    (nodup : uris.Nodup) : ∀ grant ∈ grants, after.table.find? grant.key = some grant := by
  induction all with
  | nil => exact fun _ member => absurd member List.not_mem_nil
  | @cons authority _ _ uri _ _ _ _ _ granted rest ih =>
      rcases List.nodup_cons.1 nodup with ⟨apart, nodup⟩
      rcases eq_of_grant_eq granted with ⟨rfl, rfl, _⟩
      refine List.forall_mem_cons.2 ⟨?_, ih nodup⟩
      -- the grants that follow are about other URIs
      rw [rest.find?_of_not_mem]
      · rw [Authority.granted, GrantTable.find?_put, if_pos rfl]
      · intro other member same
        rw [key_widened, GrantKey.mk.injEq] at same
        exact apart (same.2.1 ▸ member)

theorem GrantsInOrder.keys_eq {outcome : Outcome (List Grant)}
    (inOrder : authority.GrantsInOrder now grantor flags grantee uris outcome)
    (answered : outcome.answer = .ok grants) :
    grants.map Grant.key = uris.map fun uri => ⟨grantee.uid, uri, flags.isPrefix⟩ := by
  cases inOrder with
  | granted all =>
      cases answered
      exact all.keys_eq
  | refused _ _ _ => cases answered

theorem grantsInOrder_grantEach (uris : List Uri) (authority : Authority) :
    authority.GrantsInOrder now grantor flags grantee uris
      (authority.grantEach now grantor flags grantee uris) := by
  induction uris generalizing authority with
  | nil => exact .granted .nil
  | cons uri uris ih =>
      rcases authority.grant_cases now grantor uri flags grantee with
        ⟨error, _, refused⟩ | ⟨_, granted⟩
      · rw [grantEach_cons_of_fault refused]
        exact .refused (List.nil_append _).symm .nil refused
      · have whole : authority.grantEach now grantor flags grantee (uri :: uris) =
            let rest := (authority.granted now grantor uri flags grantee).grantEach now grantor
              flags grantee uris
            ⟨rest.answer.map (authority.widened now grantor uri flags grantee :: ·),
              rest.authority, [.granted uri grantee.uid flags.modes] ++ rest.events⟩ := by
          rw [grantEach, granted]
        have rest := ih (authority.granted now grantor uri flags grantee)
        rw [whole]
        generalize grantEach _ now grantor flags grantee uris = outcome at rest
        cases rest with
        | granted all => exact .granted (.cons granted all)
        | refused split all fault =>
            exact .refused (by rw [split, List.cons_append]) (.cons granted all) fault

/-- A dispatch grants what an intent reaches in the order of its itinerary, if its flags ask for it,
and sees nothing else of the intent. -/
theorem dispatch_grants_itinerary (authority : Authority) (now : Timestamp) (caller : Identity)
    (intent : Intent) (receiver : Identity) :
    let outcome := authority.dispatch now caller intent receiver
    let flags := GrantFlags.ofIntentFlags intent.flags
    (intent.flags.requestsGrant = false → outcome = ⟨.ok [], authority, []⟩) ∧
      (intent.flags.requestsGrant = true → ∃ uris, intent.IsItinerary uris ∧
        authority.GrantsInOrder now caller flags receiver uris outcome ∧
          ∀ grants, outcome.answer = .ok grants →
            grants.map Grant.key = uris.map fun uri => ⟨receiver.uid, uri, flags.isPrefix⟩) ∧
        ∀ other : Intent, other.flags.grants = intent.flags.grants →
          (∀ place, other.at? place = intent.at? place) →
            authority.dispatch now caller other receiver = outcome := by
  intro outcome flags
  have dispatched (intent : Intent) : authority.dispatch now caller intent receiver =
      if intent.flags.requestsGrant then
        authority.grantEach now caller (.ofIntentFlags intent.flags) receiver intent.reachedContent
      else ⟨.ok [], authority, []⟩ := by
    rw [dispatch, isEmpty_modes_ofIntentFlags]
    cases intent.flags.requestsGrant with
    | true => rfl
    | false => rfl
  refine ⟨?_, ?_, ?_⟩
  · intro asksNothing
    simp only [outcome, dispatched, asksNothing, Bool.false_eq_true, if_false]
  · intro asks
    have inOrder : authority.GrantsInOrder now caller flags receiver intent.reachedContent
        outcome := by
      simp only [outcome, dispatched, asks, if_true]
      exact grantsInOrder_grantEach intent.reachedContent authority
    exact ⟨intent.reachedContent, intent.isItinerary_reachedContent, inOrder,
      fun grants answered => inOrder.keys_eq answered⟩
  · intro other sameFlags samePlaces
    have asksSame : other.flags.requestsGrant = intent.flags.requestsGrant := by
      have modes := isEmpty_modes_ofIntentFlags other.flags
      rw [GrantFlags.ofIntentFlags, sameFlags, ← GrantFlags.ofIntentFlags,
        isEmpty_modes_ofIntentFlags] at modes
      exact (Bool.not_inj modes).symm
    simp only [outcome, dispatched, asksSame, Intent.reachedContent_congr samePlaces,
      GrantFlags.ofIntentFlags, sameFlags]

end Authority

namespace Notes

def site : Uri := ⟨some "https", .hierarchical (some "example.org") "" none, none⟩

/-- The note beside itself, beside a page, and beside an intent with the draft. -/
def parcel (draftFlags : IntentFlags) : Intent :=
  { Intent.empty with
    data := some note
    flags := IntentFlags.grantRead
    clip := some ⟨none, [], [⟨none, some note, none⟩,
      ⟨none, some site, some { Intent.empty with data := some draft, flags := draftFlags }⟩]⟩ }

/-- The note and its draft are granted for reading, each once, although writing is asked for beside
the draft, and neither an extra nor a selector changes that. -/
theorem parcel_is_granted :
    let before := (start 512).register provider
    let outcome := before.dispatch (moment 1) owner (parcel IntentFlags.grantWrite) viewer
    let wrapped : Intent :=
      { parcel .empty with extras := ⟨[("site", .uri site)]⟩, selector := some .empty }
    (parcel IntentFlags.grantWrite).IsItinerary [note, draft] ∧
      before.GrantsInOrder (moment 1) owner (.ofModes Modes.read) viewer [note, draft] outcome ∧
        outcome.answer.isOk = true ∧
          before.dispatch (moment 1) owner wrapped viewer = outcome := by
  intro before outcome wrapped
  have reached : (parcel IntentFlags.grantWrite).reachedContent = [note, draft] := by
    decide +kernel
  have itinerary := (parcel IntentFlags.grantWrite).isItinerary_reachedContent
  rw [reached] at itinerary
  rcases Authority.dispatch_grants_itinerary before (moment 1) owner
    (parcel IntentFlags.grantWrite) viewer with ⟨_, grants, sees⟩
  rcases grants rfl with ⟨uris, another, inOrder, _⟩
  rw [another.unique itinerary] at inOrder
  refine ⟨itinerary, inOrder, by decide +kernel, sees wrapped rfl ?_⟩
  rintro (_ | ⟨_ | _ | _⟩ | ⟨_ | _ | _, _ | _ | _⟩)
  all_goals rfl

end Notes

end IntentRouting
