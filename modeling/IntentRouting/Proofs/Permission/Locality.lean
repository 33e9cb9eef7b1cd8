import IntentRouting.Proofs.Permission.Access
import IntentRouting.Proofs.Permission.Invariant
import Mathlib.Data.Set.Basic

/-!
# Requests about one URI

The origin of a URI is its scheme and its authority. What covers a URI and what lies beneath it has the
same origin, so whoever knows the grants of an origin, the providers and the settings knows what a
request about a URI of that origin answers and announces, and what it leaves of these grants
(`Authority.AlikeOn.perform`). The grants of other origins it leaves alone
(`Authority.alikeOn_perform_elsewhere`).

Taking access is no such request: which of the grants of a user are evicted depends on all of them.
-/

namespace IntentRouting

namespace Uri

/-- A scheme and an authority. -/
abbrev Origin := Option String × Option String

def origin (uri : Uri) : Origin := (uri.scheme, uri.authority)

theorem origin_eq_of_isBeneath {lower uri : Uri} (beneath : lower.isBeneath uri = true) :
    lower.origin = uri.origin := by
  rcases isBeneath_iff.1 beneath with ⟨scheme, authority, _⟩
  rw [origin, origin, scheme, authority]

end Uri

theorem GrantKey.origin_eq_of_covers {key : GrantKey} {uri : Uri} (covers : key.covers uri = true) :
    key.uri.origin = uri.origin := by
  rw [GrantKey.covers] at covers
  split at covers
  · exact (Uri.origin_eq_of_isBeneath covers).symm
  · rw [of_decide_eq_true covers]

/-- What a request is about, if it grants, revokes or releases access to one URI. -/
inductive Request.IsAbout (uri : Uri) : Request → Prop
  | grant (now : Timestamp) (grantor : Identity) (flags : GrantFlags) (grantee : Identity) :
      Request.IsAbout uri (.grant now grantor uri flags grantee)
  | revoke (modes : Modes) (grantee : Option Nat) : Request.IsAbout uri (.revoke uri modes grantee)
  | release (grantee : Identity) (modes : Modes) : Request.IsAbout uri (.release grantee uri modes)

namespace Authority

/-- Authorities that agree on all but their shards, the grants of other origins, and the records of their
stores. -/
structure AlikeOn (origins : Set Uri.Origin) (left right : Authority) : Prop where
  providers : left.providers = right.providers
  prefixGrants : left.settings.prefixGrants = right.settings.prefixGrants
  maxPersisted : left.settings.maxPersisted = right.settings.maxPersisted
  failing : left.store.failing = right.store.failing
  grants : ∀ key : GrantKey, key.uri.origin ∈ origins →
    left.table.find? key = right.table.find? key

/-- Outcomes that agree on the answer, on what is announced, and on the grants of some origins. -/
structure Outcome.AlikeOn {α : Type} (origins : Set Uri.Origin) (left right : Outcome α) : Prop where
  answer : left.answer = right.answer
  events : left.events = right.events
  authority : left.authority.AlikeOn origins right.authority

namespace AlikeOn

variable {origins : Set Uri.Origin} {left middle right : Authority}

theorem refl (authority : Authority) : authority.AlikeOn origins authority :=
  ⟨rfl, rfl, rfl, rfl, fun _ _ => rfl⟩

theorem symm (alike : left.AlikeOn origins right) : right.AlikeOn origins left where
  providers := alike.providers.symm
  prefixGrants := alike.prefixGrants.symm
  maxPersisted := alike.maxPersisted.symm
  failing := alike.failing.symm
  grants key among := (alike.grants key among).symm

theorem trans (first : left.AlikeOn origins middle) (second : middle.AlikeOn origins right) :
    left.AlikeOn origins right where
  providers := first.providers.trans second.providers
  prefixGrants := first.prefixGrants.trans second.prefixGrants
  maxPersisted := first.maxPersisted.trans second.maxPersisted
  failing := first.failing.trans second.failing
  grants key among := (first.grants key among).trans (second.grants key among)

theorem with_tables (alike : left.AlikeOn origins right) {ofLeft ofRight : GrantTable}
    (grants : ∀ key : GrantKey, key.uri.origin ∈ origins → ofLeft.find? key = ofRight.find? key) :
    AlikeOn origins { left with table := ofLeft } { right with table := ofRight } :=
  { alike with grants }

/-- Saving changes the records of the store, and the authorities may differ in these. -/
theorem of_saved (authority : Authority) : authority.saved.AlikeOn origins authority :=
  ⟨rfl, rfl, rfl, rfl, fun _ _ => rfl⟩

theorem saved (alike : left.AlikeOn origins right) : left.saved.AlikeOn origins right.saved :=
  (of_saved left).trans (alike.trans (of_saved right).symm)

/-- A sequence of changes, each of the grant of one key, keeps authorities alike. -/
theorem foldl (alike : left.AlikeOn origins right) {α : Type} (step : GrantTable → α → GrantTable)
    (keyOf : α → GrantKey) (effect : α → Option Grant → Option Grant)
    (find?_step : ∀ table change key, (step table change).find? key =
      if key = keyOf change then effect change (table.find? key) else table.find? key)
    (changes : List α) :
    AlikeOn origins { left with table := changes.foldl step left.table }
      { right with table := changes.foldl step right.table } := by
  apply alike.with_tables
  intro key among
  rw [GrantTable.find?_foldl step keyOf effect find?_step,
    GrantTable.find?_foldl step keyOf effect find?_step, alike.grants key among]

theorem saveOrRestore (alike : left.AlikeOn origins right) (priors : List Grant) (event : Event) :
    Outcome.AlikeOn origins (left.saveOrRestore priors event)
      (right.saveOrRestore priors event) := by
  cases failing : right.store.failing with
  | false =>
      rw [saveOrRestore_of_working failing, saveOrRestore_of_working (alike.failing.trans failing)]
      exact ⟨rfl, rfl, alike.saved⟩
  | true =>
      rw [saveOrRestore_of_failing failing, saveOrRestore_of_failing (alike.failing.trans failing)]
      refine ⟨rfl, rfl, ?_⟩
      exact alike.foldl restore Grant.key
        (fun prior found => some ((found.map (·.restore prior)).getD prior))
        (fun _ _ _ => find?_restore) priors

/-- A change of each grant on its own keeps those that it spares. -/
theorem of_revises {authority : Authority} {table : GrantTable} {change : Grant → Option Grant}
    (revises : table.Revises authority.table change)
    (spares : ∀ grant : Grant, grant.uri.origin ∈ origins → change grant = some grant) :
    AlikeOn origins { authority with table } authority := by
  refine ⟨rfl, rfl, rfl, rfl, ?_⟩
  intro key among
  rw [revises key]
  cases found : authority.table.find? key with
  | none => rfl
  | some grant =>
      obtain rfl := GrantTable.key_of_find? found
      exact spares grant among

variable {uri : Uri} {modes : Modes}

/-- Whether or not it is saved, a revocation leaves the grants that it says. -/
theorem of_revoke (authority : Authority) (user : Option Nat) :
    (authority.revoke uri modes user).authority.AlikeOn origins
      { authority with table := authority.revoked uri modes user } := by
  rcases authority.revoke_cases uri modes user with ⟨_, _, after⟩ | ⟨_, after⟩
  · rw [after]
    exact .of_saved _
  · rw [after]
    exact .refl _

/-! ## Requests about a URI -/

section About

variable (alike : left.AlikeOn origins right) (among : uri.origin ∈ origins)

include alike among

theorem check (caller : Identity) : left.check caller uri modes = right.check caller uri modes := by
  have effective : ∀ key : GrantKey, key.covers uri = true →
      left.table.effectiveAt key = right.table.effectiveAt key := by
    intro key covers
    rw [GrantTable.effectiveAt, GrantTable.effectiveAt,
      alike.grants key (GrantKey.origin_eq_of_covers covers ▸ among)]
  have granted : ∀ bit, left.IsGranted caller.uid uri bit ↔ right.IsGranted caller.uid uri bit := by
    intro bit
    simp only [isGranted_iff, alike.prefixGrants]
    apply exists_congr
    intro key
    refine and_congr_right fun _ => and_congr_right fun covers => ?_
    rw [effective key covers]
  rw [Bool.eq_iff_iff, check_iff, check_iff, holdsOwnerAccess_congr alike.providers]
  simp only [granted]

theorem grantFault? (grantor : Identity) :
    left.grantFault? grantor uri modes = right.grantFault? grantor uri modes := by
  have provider? : left.provider? = right.provider? := by
    funext name
    rw [Authority.provider?, Authority.provider?, alike.providers]
  simp only [Authority.grantFault?, provider?, alike.check among grantor]

theorem widened (now : Timestamp) (grantor : Identity) (flags : GrantFlags) (grantee : Identity) :
    left.widened now grantor uri flags grantee = right.widened now grantor uri flags grantee := by
  simp only [Authority.widened, alike.grants ⟨grantee.uid, uri, flags.isPrefix⟩ among]

theorem grant (now : Timestamp) (grantor : Identity) (flags : GrantFlags) (grantee : Identity) :
    Outcome.AlikeOn origins (left.grant now grantor uri flags grantee)
      (right.grant now grantor uri flags grantee) := by
  simp only [Authority.grant, alike.grantFault? among grantor,
    alike.widened among now grantor flags grantee]
  cases right.grantFault? grantor uri flags.modes with
  | some error => exact ⟨rfl, rfl, alike⟩
  | none =>
      refine ⟨rfl, rfl, alike.with_tables ?_⟩
      intro key other
      rw [GrantTable.find?_put, GrantTable.find?_put, alike.grants key other]

/-- The two tables may list what is revoked in different orders. -/
theorem revocable_perm (user : Option Nat) :
    (left.revocable uri modes user).Perm (right.revocable uri modes user) := by
  apply Shard.Distinct.perm (GrantTable.shard_distinct.filter _) (GrantTable.shard_distinct.filter _)
  intro grant
  rw [← Authority.revocable, ← Authority.revocable, mem_revocable, mem_revocable]
  refine and_congr_left fun revoked => ?_
  have origin := Uri.origin_eq_of_isBeneath (isBeneath_of_isRevoked revoked)
  rw [GrantTable.mem_grants_iff, GrantTable.mem_grants_iff, alike.grants grant.key (origin ▸ among)]

theorem revokesDurable (user : Option Nat) :
    left.revokesDurable uri modes user = right.revokesDurable uri modes user := by
  rw [Authority.revokesDurable, Authority.revokesDurable, Bool.eq_iff_iff, List.any_eq_true,
    List.any_eq_true]
  simp only [(alike.revocable_perm among user).mem_iff]

theorem revoke (user : Option Nat) :
    Outcome.AlikeOn origins (left.revoke uri modes user) (right.revoke uri modes user) := by
  have perm : (left.revocable uri modes user).Perm (right.revocable uri modes user) :=
    alike.revocable_perm among user
  refine ⟨congrArg Except.ok perm.length_eq, ?events, ?authority⟩
  case events =>
    have isEmpty : (left.revocable uri modes user).isEmpty =
        (right.revocable uri modes user).isEmpty := by
      rw [Bool.eq_iff_iff, List.isEmpty_iff, List.isEmpty_iff]
      exact ⟨fun none => (none ▸ perm).nil_eq.symm, fun none => (none ▸ perm).eq_nil⟩
    simp only [Authority.revoke, isEmpty]
  case authority =>
    have revoked : AlikeOn origins { left with table := left.revoked uri modes user }
        { right with table := right.revoked uri modes user } := by
      apply alike.with_tables
      intro key other
      rw [revises_revoked key, revises_revoked key, alike.grants key other]
    exact (of_revoke left user).trans (revoked.trans (of_revoke right user).symm)

theorem grantsOn (uid : Nat) : left.grantsOn uid uri = right.grantsOn uid uri := by
  rw [Authority.grantsOn, Authority.grantsOn, alike.grants ⟨uid, uri, false⟩ among,
    alike.grants ⟨uid, uri, true⟩ among]

theorem releasable (uid : Nat) :
    left.releasable uid uri modes = right.releasable uid uri modes := by
  rw [Authority.releasable, Authority.releasable, alike.grantsOn among]

theorem release (grantee : Identity) :
    Outcome.AlikeOn origins (left.release grantee uri modes)
      (right.release grantee uri modes) := by
  simp only [Authority.release, alike.releasable among]
  split
  · exact ⟨rfl, rfl, alike⟩
  · apply AlikeOn.saveOrRestore
    exact alike.foldl (fun table grant => table.settle (grant.release modes)) Grant.key
      (fun grant _ => (grant.release modes).settled) (fun _ _ _ => GrantTable.find?_settle) _

end About

end AlikeOn

variable {left right authority : Authority} {origins : Set Uri.Origin} {uri : Uri}
  {request : Request}

theorem Outcome.AlikeOn.withoutAnswer {α : Type} {left right : Outcome α}
    (alike : left.AlikeOn origins right) : left.withoutAnswer.AlikeOn origins right.withoutAnswer :=
  ⟨congrArg (Except.map fun _ => ()) alike.answer, alike.events, alike.authority⟩

/-- Authorities with the same grants of an origin do the same when they are asked about a URI of that
origin. -/
theorem AlikeOn.perform (alike : left.AlikeOn origins right) (about : request.IsAbout uri)
    (among : uri.origin ∈ origins) :
    (left.perform request).AlikeOn origins (right.perform request) := by
  cases about with
  | grant now grantor flags grantee =>
      exact (alike.grant among now grantor flags grantee).withoutAnswer
  | revoke modes user => exact (alike.revoke among user).withoutAnswer
  | release grantee modes => exact alike.release among grantee

theorem AlikeOn.writes (alike : left.AlikeOn origins right) (about : request.IsAbout uri)
    (among : uri.origin ∈ origins) : left.writes request = right.writes request := by
  rw [Authority.writes, Authority.writes, alike.failing]
  cases about with
  | grant now grantor flags grantee => rfl
  | revoke modes user => simp only [saves, alike.revokesDurable among]
  | release grantee modes => simp only [saves, alike.releasable among]

/-- What is asked about a URI leaves the grants of other origins as they are. -/
theorem alikeOn_perform_elsewhere (authority : Authority) (about : request.IsAbout uri) :
    (authority.perform request).authority.AlikeOn {uri.origin}ᶜ authority := by
  cases about with
  | grant now grantor flags grantee =>
      rw [perform]
      rcases authority.grant_cases now grantor uri flags grantee with ⟨_, _, after⟩ | ⟨_, after⟩
      · rw [after]
        exact .refl _
      · rw [after]
        refine ⟨rfl, rfl, rfl, rfl, ?_⟩
        intro key away
        refine GrantTable.find?_put.trans (if_neg ?_)
        rintro rfl
        exact away (congrArg (Uri.origin ∘ GrantKey.uri) key_widened)
  | revoke modes user =>
      refine (AlikeOn.of_revoke authority user).trans (.of_revises revises_revoked ?_)
      intro grant away
      rw [afterRevoking, if_neg]
      intro revoked
      exact away (Uri.origin_eq_of_isBeneath (isBeneath_of_isRevoked revoked))
  | release grantee modes =>
      rw [perform]
      rcases authority.release_cases grantee uri modes with
        ⟨_, after, _⟩ | ⟨_, ⟨_, after⟩ | ⟨_, after⟩⟩
      · rw [after]
        exact .refl _
      · have released : AlikeOn {uri.origin}ᶜ
            { authority with table := authority.released grantee.uid uri modes } authority := by
          refine .of_revises revises_released ?_
          intro grant away
          rw [afterReleasing, if_neg]
          rintro ⟨_, rfl, _⟩
          exact away rfl
        rw [after]
        exact (AlikeOn.of_saved _).trans released
      · rw [after]
        exact .of_revises revises_unreleased fun _ _ => rfl

end Authority

end IntentRouting
