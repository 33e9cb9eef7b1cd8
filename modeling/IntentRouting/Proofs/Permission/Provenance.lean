import IntentRouting.Proofs.Permission.Access
import IntentRouting.Proofs.Permission.Invariant
import Mathlib.Data.List.Induction

/-!
# Where access comes from

Access is passed on by whoever holds it, so a user can hold access that no owner ever granted to
that user. In every history it goes back to an owner or to a privileged user all the same: for each
mode of a grant one of them granted that mode on a URI that the URI of the grant lies beneath
(`Authority.GrantedByOwner`). Durable access moreover was granted to be kept, under exactly the key
of its grant (`Authority.GrantedToKeep`).

The two need not be the same delegation. Nothing asks whether the access of a grantor may be kept,
so a holder of transient access can grant it to itself to be kept.

The invariant is `Authority.Traced`, a property of each grant over the history up to now. It is
stable because every change of a grant only takes modes away or makes durable what was granted to be
kept. A new grant has it since the grantor is an owner, or holds the modes by a grant that has it,
and lying beneath is transitive.
-/

namespace IntentRouting

namespace Authority

/-- In a history, an owner of the provider of a URI or a privileged user granted a flag on it. -/
def GrantedByOwner (start : Authority) (requests : List Request) (uri : Uri) (bit : Fin 32) :
    Prop :=
  ∃ before delegation, (before, delegation) ∈ start.delegated requests ∧
    before.holdsOwnerAccess delegation.grantor delegation.uri = true ∧ delegation.uri = uri ∧
      bit ∈ delegation.flags.modes

/-- In a history, a flag was granted to be kept, under some key. -/
def GrantedToKeep (start : Authority) (requests : List Request) (key : GrantKey) (bit : Fin 32) :
    Prop :=
  ∃ before delegation, (before, delegation) ∈ start.delegated requests ∧ delegation.key = key ∧
    delegation.flags.isPersistable = true ∧ bit ∈ delegation.flags.modes

/-- All modes of a grant go back to an owner, and the durable ones were granted to be kept. -/
structure Traced (start : Authority) (requests : List Request) (grant : Grant) : Prop where
  owned : ∀ bit, bit ∈ grant.transient ∨ bit ∈ grant.persistable ∨ bit ∈ grant.persisted →
    ∃ uri, start.GrantedByOwner requests uri bit ∧ grant.uri.isBeneath uri = true
  kept : ∀ bit, bit ∈ grant.persistable ∨ bit ∈ grant.persisted →
    start.GrantedToKeep requests grant.key bit

variable {start : Authority} {requests : List Request} {request : Request} {bit : Fin 32}

theorem GrantedByOwner.append {uri : Uri} (granted : start.GrantedByOwner requests uri bit)
    (later : List Request) : start.GrantedByOwner (requests ++ later) uri bit := by
  rcases granted with ⟨before, delegation, member, rest⟩
  exact ⟨before, delegation, mem_delegated_append member later, rest⟩

theorem GrantedToKeep.append {key : GrantKey} (granted : start.GrantedToKeep requests key bit)
    (later : List Request) : start.GrantedToKeep (requests ++ later) key bit := by
  rcases granted with ⟨before, delegation, member, rest⟩
  exact ⟨before, delegation, mem_delegated_append member later, rest⟩

theorem Traced.append {grant : Grant} (traced : start.Traced requests grant)
    (later : List Request) : start.Traced (requests ++ later) grant := by
  constructor
  · intro bit held
    rcases traced.owned bit held with ⟨uri, granted, beneath⟩
    exact ⟨uri, granted.append later, beneath⟩
  · intro bit kept
    exact (traced.kept bit kept).append later

/-- A grant that has no mode that another with its key does not have, and keeps none that the other
does not. -/
theorem Traced.narrow {grant other : Grant} (traced : start.Traced requests grant)
    (same : other.key = grant.key) (transient : ∀ bit ∈ other.transient, bit ∈ grant.transient)
    (kept : ∀ bit, bit ∈ other.persistable ∨ bit ∈ other.persisted →
      bit ∈ grant.persistable ∨ bit ∈ grant.persisted) :
    start.Traced requests other := by
  have uri : other.uri = grant.uri := congrArg GrantKey.uri same
  constructor
  · rw [uri]
    intro bit held
    rcases held with held | held
    · exact traced.owned bit (.inl (transient bit held))
    · exact traced.owned bit (.inr (kept bit held))
  · rw [same]
    intro bit held
    exact traced.kept bit (kept bit held)

theorem stable_traced (start : Authority) (requests : List Request) :
    Grant.Stable (start.Traced requests) where
  without grant modes traced _ := by
    refine traced.narrow rfl ?_ ?_
    · intro bit held
      exact (FlagSet.mem_sdiff.1 held).1
    · intro bit held
      exact held.imp (fun held => (FlagSet.mem_sdiff.1 held).1)
        (fun held => (FlagSet.mem_sdiff.1 held).1)
  promote grant modes now traced promised := by
    refine traced.narrow rfl (fun _ => id) ?_
    rintro bit (held | held)
    · exact .inl held
    · rcases FlagSet.mem_union.1 held with held | taken
      · exact .inr held
      · exact .inl (FlagSet.contains_iff.1 promised bit taken)
  release grant modes traced _ := by
    refine traced.narrow rfl (fun _ => id) ?_
    intro bit held
    exact held.imp (fun held => (FlagSet.mem_sdiff.1 held).1)
      (fun held => (FlagSet.mem_sdiff.1 held).1)
  evict grant traced _ := by
    refine traced.narrow rfl (fun _ => id) ?_
    rintro bit (held | held) <;> exact absurd held FlagSet.not_mem_empty
  endSession grant traced _ := by
    refine traced.narrow rfl (fun _ held => absurd held FlagSet.not_mem_empty) ?_
    intro bit held
    exact held.imp_left fun held => (FlagSet.mem_inter.1 held).1
  reload grant kept traced made := by
    rcases Grant.toPersisted?_eq_some_iff.1 made with ⟨_, rfl⟩
    refine traced.narrow rfl (fun _ held => absurd held FlagSet.not_mem_empty) ?_
    rintro bit (held | held) <;> exact .inr held

/-- What a grantor may use goes back to an owner, who may be the grantor. -/
theorem grantedByOwner_of_check {current before : Authority} {delegation : Delegation}
    (traced : current.Held (start.Traced requests))
    (providers : current.providers = before.providers)
    (granted : (before, delegation) ∈ start.delegated requests)
    (asked : bit ∈ delegation.flags.modes)
    (allowed : current.check delegation.grantor delegation.uri delegation.flags.modes = true) :
    ∃ uri, start.GrantedByOwner requests uri bit ∧ delegation.uri.isBeneath uri = true := by
  rcases check_single_iff.1 (check_single_of_check allowed asked) with
    owner | ⟨_, grant, member, _, covers, _, held⟩
  · rw [holdsOwnerAccess_congr providers] at owner
    exact ⟨delegation.uri, ⟨before, delegation, granted, owner, rfl, asked⟩, Uri.isBeneath_self⟩
  · have held : bit ∈ grant.transient ∨ bit ∈ grant.persistable ∨ bit ∈ grant.persisted :=
      (FlagSet.mem_union.1 held).imp_right .inr
    rcases (traced grant member).owned bit held with ⟨uri, granted, above⟩
    exact ⟨uri, granted, Uri.isBeneath_trans (Grant.isBeneath_of_covers covers) above⟩

theorem traced_ofKey (key : GrantKey) (grantor : Nat) (now : Timestamp) :
    start.Traced requests (.ofKey key grantor now) := by
  constructor
  · rintro bit (held | held | held) <;> exact absurd held FlagSet.not_mem_empty
  · rintro bit (held | held) <;> exact absurd held FlagSet.not_mem_empty

theorem Traced.widen {grant : Grant} {grantor pid : Nat} {modes : Modes} {persistable : Bool}
    (traced : start.Traced requests grant)
    (owned : ∀ bit ∈ modes, ∃ uri, start.GrantedByOwner requests uri bit ∧
      grant.uri.isBeneath uri = true)
    (kept : persistable = true → ∀ bit ∈ modes, start.GrantedToKeep requests grant.key bit) :
    start.Traced requests (grant.widen grantor pid modes persistable) := by
  constructor
  · rintro bit (held | held | held)
    · rcases FlagSet.mem_union.1 held with held | asked
      · exact traced.owned bit (.inl held)
      · exact owned bit asked
    · rcases Grant.mem_persistable_widen.1 held with held | ⟨_, asked⟩
      · exact traced.owned bit (.inr (.inl held))
      · exact owned bit asked
    · exact traced.owned bit (.inr (.inr held))
  · rintro bit (held | held)
    · rcases Grant.mem_persistable_widen.1 held with held | ⟨promised, asked⟩
      · exact traced.kept bit (.inl held)
      · exact kept promised bit asked
    · exact traced.kept bit (.inr held)

theorem traced_widened {current before : Authority} {delegation : Delegation} {now : Timestamp}
    (traced : current.Held (start.Traced requests))
    (providers : current.providers = before.providers)
    (granted : (before, delegation) ∈ start.delegated requests)
    (allowed : current.check delegation.grantor delegation.uri delegation.flags.modes = true) :
    start.Traced requests
      (current.widened now delegation.grantor delegation.uri delegation.flags
        delegation.grantee) := by
  rcases current.exists_prior now delegation.grantor delegation.uri delegation.flags
    delegation.grantee with ⟨prior, widened, keyed, found⟩
  have tracedPrior : start.Traced requests prior := by
    rcases found with found | ⟨_, rfl⟩
    · exact traced prior (GrantTable.find?_eq_some_iff.1 found).1
    · exact traced_ofKey _ _ _
  have uri : prior.uri = delegation.uri := congrArg GrantKey.uri keyed
  rw [widened]
  apply tracedPrior.widen
  · intro bit asked
    rw [uri]
    exact grantedByOwner_of_check traced providers granted asked allowed
  · intro promised bit asked
    exact ⟨before, delegation, granted, keyed.symm, promised, asked⟩

/-! ## Histories -/

/-- The induction is on the history from its end, since a grant is traced back through what came
before. -/
theorem traced_run (place : Placement) (settings : PermissionSettings) (requests : List Request) :
    ((new place settings .empty).run requests).Everywhere
      ((new place settings .empty).Traced requests) := by
  induction requests using List.reverseRecOn with
  | nil => exact everywhere_new _ place settings
  | append_singleton requests request ih =>
      rw [run_concat]
      apply Everywhere.perform (stable_traced _ _) (ih.mono fun _ traced => traced.append [request])
      intro current now delegation granted providers traced allowed
      exact traced_widened traced providers (mem_delegated_concat granted)
        (grantFault?_eq_none_iff.1 allowed).2.2.2

/-- A durable mode of a user on a URI was granted to be kept, under the key of a grant of the user
that covers the URI, and an owner or a privileged user granted it on a URI that the URI lies
beneath. -/
theorem provenance_of_persisted (place : Placement) (settings : PermissionSettings)
    (requests : List Request) {grant : Grant}
    (member : grant ∈ ((new place settings .empty).run requests).table.grants)
    {target : Uri} (covers : grant.covers target = true)
    {bit : Fin 32} (durable : bit ∈ grant.persisted) :
    (∃ before delegation, (before, delegation) ∈ (new place settings .empty).delegated requests ∧
        delegation.key = grant.key ∧ delegation.flags.isPersistable = true ∧
          bit ∈ delegation.flags.modes) ∧
      ∃ before delegation, (before, delegation) ∈ (new place settings .empty).delegated requests ∧
        before.holdsOwnerAccess delegation.grantor delegation.uri = true ∧
          bit ∈ delegation.flags.modes ∧ target.isBeneath delegation.uri = true := by
  have traced := (traced_run place settings requests).held grant member
  refine ⟨traced.kept bit (.inr durable), ?_⟩
  rcases traced.owned bit (.inr (.inr durable)) with
    ⟨_, ⟨before, delegation, granted, owner, rfl, asked⟩, above⟩
  exact ⟨before, delegation, granted, owner, asked,
    Uri.isBeneath_trans (Grant.isBeneath_of_covers covers) above⟩

/-- The durable access of a viewer is traced back to the owner of the note. -/
theorem provenance_of_kept_note :
    Notes.kept ∈ ((Notes.start 512).run Notes.keeping).table.grants ∧
      Notes.kept.covers Notes.note = true ∧
      0 ∈ Notes.kept.persisted ∧
      (∃ before delegation, (before, delegation) ∈ (Notes.start 512).delegated Notes.keeping ∧
        delegation.key = Notes.kept.key ∧ delegation.flags.isPersistable = true ∧
          0 ∈ delegation.flags.modes) ∧
      ∃ before delegation, (before, delegation) ∈ (Notes.start 512).delegated Notes.keeping ∧
        before.holdsOwnerAccess delegation.grantor delegation.uri = true ∧
          0 ∈ delegation.flags.modes ∧ Notes.note.isBeneath delegation.uri = true := by
  have member : Notes.kept ∈ ((Notes.start 512).run Notes.keeping).table.grants := by decide +kernel
  have covers : Notes.kept.covers Notes.note = true := by decide +kernel
  have durable : 0 ∈ Notes.kept.persisted := by decide +kernel
  exact ⟨member, covers, durable, provenance_of_persisted _ _ Notes.keeping member covers durable⟩

/-- A viewer makes access to a note durable although nobody who owns the note, and no privileged
user, ever granted access to it to be kept. -/
theorem note_kept_without_owner :
    let after := (Notes.start 512).run Notes.keeping
    after.holdsOwnerAccess Notes.viewer Notes.note = false ∧
      (∃ grant ∈ after.table.grants, grant.grantee = Notes.viewer.uid ∧ grant.uri = Notes.note ∧
        0 ∈ grant.persisted) ∧
      ∀ step ∈ (Notes.start 512).delegated Notes.keeping,
        step.1.holdsOwnerAccess step.2.grantor Notes.note = true →
          step.2.flags.isPersistable = false := by
  decide +kernel

end Authority

end IntentRouting
