import IntentRouting.Proofs.Permission.Access
import IntentRouting.Proofs.Permission.Soundness
import Mathlib.Data.List.Nodup

/-!
# The scope of a revocation

A revocation is about the grants on its URI and beneath it, of one user or of all. Of these
`Authority.revoke` changes only the ones of which a mode that it takes can be used, and counts them.
The others in its scope have none of the modes in any of their three sets, since a mode that may be
kept can be used (`Grant.Backed`). So a revocation takes its modes from every grant in its scope
(`Authority.revises_scope`), and revocations with the same scope add up.

A grant for everything beneath a URI above the scope is not in it, although it is about URIs that
lie there. Such grants are what is left of the access of the users of the scope to what lies in it,
if it is not theirs anyway (`Authority.revoke_takes_exactly`).
-/

namespace IntentRouting

namespace Grant

/-- Whether a grant is on a URI or beneath it, and of the user if one is given. -/
def isInScope (uri : Uri) (user : Option Nat) (grant : Grant) : Bool :=
  grant.uri.isBeneath uri && user.all (· = grant.grantee)

/-- What is left of a grant when modes are taken from it: nothing, if that makes it empty. -/
def strip (modes : Modes) (grant : Grant) : Option Grant :=
  if !grant.isEmpty && (grant.without modes).isEmpty then none else some (grant.without modes)

variable {grant left : Grant} {first second modes : Modes} {uri : Uri} {user : Option Nat}

theorem eq_without_of_strip (stripped : grant.strip modes = some left) :
    left = grant.without modes := by
  simp only [strip] at stripped
  split at stripped
  · cases stripped
  · cases stripped
    rfl

theorem isInScope_of_key_eq {other : Grant} (same : left.key = other.key) :
    left.isInScope uri user = other.isInScope uri user := by
  simp only [key, GrantKey.mk.injEq] at same
  simp only [isInScope, same]

theorem without_without :
    (grant.without first).without second = grant.without (first ∪ second) := by
  have twice : ∀ held : Modes, (held \ first) \ second = held \ (first ∪ second) := by
    intro held
    ext bit
    simp only [FlagSet.mem_sdiff, FlagSet.mem_union, not_or, and_assoc]
  simp only [without, twice]

theorem isEmpty_without (empty : grant.isEmpty = true) : (grant.without modes).isEmpty = true := by
  rw [← Bool.not_eq_false, isEmpty_eq_false_iff]
  rintro ⟨bit, held⟩
  have nonempty : grant.isEmpty = false := by
    refine isEmpty_eq_false_iff.2 ⟨bit, ?_⟩
    exact held.imp (fun held => (FlagSet.mem_sdiff.1 held).1)
      (.imp (fun held => (FlagSet.mem_sdiff.1 held).1) fun held => (FlagSet.mem_sdiff.1 held).1)
  rw [empty] at nonempty
  cases nonempty

theorem strip_strip :
    (grant.strip first).bind (strip second) = grant.strip (first ∪ second) := by
  cases emptyBefore : grant.isEmpty with
  | true =>
      have emptyAfter : (grant.without first).isEmpty = true := isEmpty_without emptyBefore
      simp [strip, emptyBefore, emptyAfter, without_without]
  | false =>
      cases emptyAfter : (grant.without first).isEmpty with
      | true =>
          have gone : (grant.without (first ∪ second)).isEmpty = true := by
            rw [← without_without]
            exact isEmpty_without emptyAfter
          simp [strip, emptyBefore, emptyAfter, gone]
      | false => simp [strip, emptyBefore, emptyAfter, without_without]

/-- Nothing is taken from a grant of which none of the modes can be used. -/
theorem Backed.without_eq_self (backed : grant.Backed)
    (unused : grant.effective.intersects modes = false) : grant.without modes = grant := by
  have absent : ∀ bit ∈ grant.effective, bit ∉ modes := by
    intro bit held asked
    have both := FlagSet.intersects_iff.2 ⟨bit, asked, held⟩
    rw [unused] at both
    cases both
  have whole : ∀ part : Modes, (∀ bit ∈ part, bit ∈ grant.effective) → part \ modes = part := by
    intro part inUse
    ext bit
    rw [FlagSet.mem_sdiff, and_iff_left_iff_imp]
    exact fun held => absent bit (inUse bit held)
  have transient := whole grant.transient fun bit held => FlagSet.mem_union.2 (.inl held)
  have persisted := whole grant.persisted fun bit held => FlagSet.mem_union.2 (.inr held)
  simp only [without, transient, persisted, whole grant.persistable backed]

end Grant

namespace Authority

variable {authority : Authority} {uri : Uri} {modes : Modes} {user : Option Nat} {grant : Grant}

theorem afterRevoking_eq_strip (backed : grant.Backed) : afterRevoking uri modes user grant =
    if grant.isInScope uri user then grant.strip modes else some grant := by
  have revoked : isRevoked uri modes user grant =
      (grant.isInScope uri user && grant.effective.intersects modes) := rfl
  rw [afterRevoking, revoked]
  cases grant.isInScope uri user with
  | false => rfl
  | true =>
      cases used : grant.effective.intersects modes with
      | true =>
          rcases FlagSet.intersects_iff.1 used with ⟨bit, _, held⟩
          have nonempty : grant.isEmpty = false := by
            refine Grant.isEmpty_eq_false_iff.2 ⟨bit, ?_⟩
            exact (FlagSet.mem_union.1 held).imp_right .inr
          simp [Grant.strip, Grant.settled, nonempty]
      | false =>
          have same := backed.without_eq_self used
          simp [Grant.strip, same]

theorem table_revoke (authority : Authority) (uri : Uri) (modes : Modes) (user : Option Nat) :
    (authority.revoke uri modes user).authority.table = authority.revoked uri modes user := by
  rcases authority.revoke_cases uri modes user with ⟨_, _, after⟩ | ⟨_, after⟩
  · rw [after]
    rfl
  · rw [after]

/-- A revocation takes its modes from every grant in its scope. -/
theorem revises_scope (backed : authority.Held Grant.Backed) (modes : Modes) :
    (authority.revoke uri modes user).authority.table.Revises authority.table
      fun grant => if grant.isInScope uri user then grant.strip modes else some grant := by
  rw [table_revoke]
  refine revises_revoked.congr ?_
  intro grant member
  exact afterRevoking_eq_strip (backed grant member)

theorem backed_revoke (backed : authority.Held Grant.Backed) (modes : Modes) :
    (authority.revoke uri modes user).authority.Held Grant.Backed :=
  backed.revoke Grant.stable_backed.toHereditary modes user

/-- What is left in the scope of a revocation has none of its modes. -/
theorem notMem_effective_of_isInScope (backed : authority.Held Grant.Backed)
    (member : grant ∈ (authority.revoke uri modes user).authority.table.grants)
    (inScope : grant.isInScope uri user = true) {bit : Fin 32} (asked : bit ∈ modes) :
    bit ∉ grant.effective := by
  rcases (revises_scope backed modes).mem_grants member with ⟨prior, _, changed⟩
  have bare : grant = prior.without modes := by
    split at changed
    · exact Grant.eq_without_of_strip changed
    · rename_i outside
      cases changed
      exact absurd inScope outside
  rw [bare]
  intro held
  rcases FlagSet.mem_union.1 held with held | held
  · exact (FlagSet.mem_sdiff.1 held).2 asked
  · exact (FlagSet.mem_sdiff.1 held).2 asked

theorem answer_revoke (authority : Authority) (uri : Uri) (modes : Modes) (user : Option Nat) :
    (authority.revoke uri modes user).answer =
      .ok (authority.table.grants.filter fun grant =>
        grant.isInScope uri user && grant.effective.intersects modes).length := by
  have counted : (authority.revocable uri modes user).Perm
      (authority.table.grants.filter fun grant =>
        grant.isInScope uri user && grant.effective.intersects modes) := by
    apply Shard.Distinct.perm (GrantTable.shard_distinct.filter _)
      (GrantTable.grants_distinct.filter _)
    intro grant
    rw [← revocable, mem_revocable, List.mem_filter]
    rfl
  rw [revoke, counted.length_eq]

/-- Of the users of its scope, a revocation leaves to those who do not own the provider only what
they have by grants for everything beneath a URI that is not in the scope. -/
theorem check_revoke_iff (backed : authority.Held Grant.Backed) {caller : Identity} {target : Uri}
    {bit : Fin 32} (affected : user.all (· = caller.uid) = true)
    (beneath : target.isBeneath uri = true) (asked : bit ∈ modes) :
    let after := (authority.revoke uri modes user).authority
    after.check caller target (.single bit) = true ↔
      after.holdsOwnerAccess caller target = true ∨
        target.isContent = true ∧ after.settings.prefixGrants = true ∧
          ∃ grant ∈ after.table.grants, grant.grantee = caller.uid ∧ grant.beneath = true ∧
            grant.uri.isBeneath uri = false ∧ target.isBeneath grant.uri = true ∧
              bit ∈ grant.effective := by
  intro after
  rw [check_single_iff]
  apply or_congr_right
  apply and_congr_right
  intro _
  constructor
  · rintro ⟨grant, member, grantee, covers, counts, held⟩
    have above : grant.uri.isBeneath uri = false := by
      rw [← Bool.not_eq_true]
      intro inside
      have inScope : grant.isInScope uri user = true := by
        simp only [Grant.isInScope, inside, grantee, affected, Bool.and_self]
      exact notMem_effective_of_isInScope backed member inScope asked held
    cases prefixed : grant.beneath with
    | false =>
        -- a grant for exactly the target would be in the scope
        have same : grant.uri = target := by simpa [Grant.covers, prefixed] using covers
        rw [same, beneath] at above
        cases above
    | true =>
        have lower : target.isBeneath grant.uri = true := by
          simpa [Grant.covers, prefixed] using covers
        exact ⟨counts prefixed, grant, member, grantee, prefixed, above, lower, held⟩
  · rintro ⟨respected, grant, member, grantee, prefixed, _, lower, held⟩
    have covers : grant.covers target = true := by simpa [Grant.covers, prefixed] using lower
    exact ⟨grant, member, grantee, covers, fun _ => respected, held⟩

theorem find?_revoke_revoke (backed : authority.Held Grant.Backed) (first second : Modes)
    (key : GrantKey) :
    ((authority.revoke uri first user).authority.revoke uri second user).authority.table.find? key =
      (authority.revoke uri (first ∪ second) user).authority.table.find? key := by
  rw [revises_scope (backed_revoke backed first) second key, revises_scope backed first key,
    revises_scope backed (first ∪ second) key, Option.bind_assoc]
  cases authority.table.find? key with
  | none => rfl
  | some grant =>
      simp only [Option.bind_some]
      cases inScope : grant.isInScope uri user with
      | false => simp [inScope]
      | true =>
          rw [if_pos rfl, if_pos rfl, ← Grant.strip_strip]
          cases stripped : grant.strip first with
          | none => rfl
          | some left =>
              have keyed : left.key = grant.key := by
                rw [Grant.eq_without_of_strip stripped, Grant.key_without]
              simp [Grant.isInScope_of_key_eq keyed, inScope]

/-- After every history a revocation takes its modes from each grant in its scope, removes the
grants that it makes empty, leaves all others alone, and counts those of which a mode that it takes
could be used. The users of its scope may then use its modes on what lies there only as owners or by
grants for everything beneath a URI outside of the scope. Revoking again changes no grant, and modes
can be revoked one after the other or together. -/
theorem revoke_takes_exactly (place : Placement) (settings : PermissionSettings)
    (store : GrantStore) (requests : List Request) (uri : Uri) (modes : Modes)
    (user : Option Nat) :
    let before := (load place settings store).run requests
    let outcome := before.revoke uri modes user
    let after := outcome.authority
    (∀ key, after.table.find? key = (before.table.find? key).bind fun grant =>
        if grant.isInScope uri user then grant.strip modes else some grant) ∧
      outcome.answer = .ok (before.table.grants.filter fun grant =>
        grant.isInScope uri user && grant.effective.intersects modes).length ∧
      (∀ caller target bit, user.all (· = caller.uid) = true → target.isBeneath uri = true →
        bit ∈ modes →
          (after.check caller target (.single bit) = true ↔
            after.holdsOwnerAccess caller target = true ∨
              target.isContent = true ∧ after.settings.prefixGrants = true ∧
                ∃ grant ∈ after.table.grants, grant.grantee = caller.uid ∧ grant.beneath = true ∧
                  grant.uri.isBeneath uri = false ∧ target.isBeneath grant.uri = true ∧
                    bit ∈ grant.effective)) ∧
      (after.revoke uri modes user).answer = .ok 0 ∧
      ∀ others key, (after.revoke uri others user).authority.table.find? key =
        (before.revoke uri (modes ∪ others) user).authority.table.find? key := by
  intro before outcome after
  have backed : before.Held Grant.Backed := (backed_run_load place settings store requests).held
  refine ⟨revises_scope backed modes, before.answer_revoke uri modes user, ?_, ?_, ?_⟩
  · intro caller target bit affected beneath asked
    exact check_revoke_iff backed affected beneath asked
  · have none : (after.table.grants.filter fun grant =>
        grant.isInScope uri user && grant.effective.intersects modes) = [] := by
      rw [List.filter_eq_nil_iff]
      intro grant member counted
      rw [Bool.and_eq_true] at counted
      rcases FlagSet.intersects_iff.1 counted.2 with ⟨bit, asked, held⟩
      exact notMem_effective_of_isInScope backed member counted.1 asked held
    rw [answer_revoke, none]
    rfl
  · exact find?_revoke_revoke backed modes

/-- A note is shared with a viewer together with everything beneath it, and what lies beneath it
once more. Revoking what lies beneath it takes one grant, and the viewer keeps its access by the
other. -/
theorem revoking_beneath_note_takes_one_grant :
    let before := (Notes.start 512).run [.register Notes.provider,
      Notes.sharing (flagsFor Modes.read true),
      .grant (Notes.moment 2) Notes.owner Notes.draft Notes.readToKeep Notes.viewer]
    let outcome := before.revoke Notes.draft Modes.read (some Notes.viewer.uid)
    let after := outcome.authority
    (some Notes.viewer.uid).all (· = Notes.viewer.uid) = true ∧
      Notes.draft.isBeneath Notes.draft = true ∧ 0 ∈ Modes.read ∧ outcome.answer = .ok 1 ∧
      after.table.find? ⟨Notes.viewer.uid, Notes.draft, false⟩ = none ∧
      after.check Notes.viewer Notes.draft (.single 0) = true ∧
      (∃ grant ∈ after.table.grants, grant.beneath = true ∧
        grant.uri.isBeneath Notes.draft = false) ∧
      (after.revoke Notes.draft Modes.read (some Notes.viewer.uid)).answer = .ok 0 := by
  intro before outcome after
  rcases revoke_takes_exactly (fun _ _ => 0) ⟨1, true, 512⟩ .empty
      [.register Notes.provider, Notes.sharing (flagsFor Modes.read true),
        .grant (Notes.moment 2) Notes.owner Notes.draft Notes.readToKeep Notes.viewer]
      Notes.draft Modes.read (some Notes.viewer.uid) with
    ⟨left, counted, checked, again, _⟩
  have affected : (some Notes.viewer.uid).all (· = Notes.viewer.uid) = true := by decide
  have asked : 0 ∈ Modes.read := by decide
  have allowed : after.check Notes.viewer Notes.draft (.single 0) = true := by decide +kernel
  have gone := left ⟨Notes.viewer.uid, Notes.draft, false⟩
  have stripped : ((before.table.find? ⟨Notes.viewer.uid, Notes.draft, false⟩).bind fun grant =>
      if grant.isInScope Notes.draft (some Notes.viewer.uid) then grant.strip Modes.read
      else some grant) = none := by
    decide +kernel
  refine ⟨affected, Uri.isBeneath_self, asked, ?_, gone.trans stripped, allowed, ?_, again⟩
  · exact counted.trans (by decide +kernel)
  · rcases (checked Notes.viewer Notes.draft 0 affected Uri.isBeneath_self asked).1 allowed with
      owns | ⟨_, _, grant, member, _, prefixed, above, _⟩
    · exact absurd owns (by decide +kernel)
    · exact ⟨grant, member, prefixed, above⟩

end Authority

end IntentRouting
