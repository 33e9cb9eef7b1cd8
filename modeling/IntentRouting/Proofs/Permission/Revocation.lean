import IntentRouting.Proofs.Permission.Provenance
import IntentRouting.Proofs.Permission.Records

/-!
# Revocations and the store

A revocation takes modes out of the table, whether or not it can be saved. If it cannot, the store
still has them, and reloading would bring them back. They are gone for good as soon as anything is
saved before the store is loaded again, since saving writes the whole table. From then on a mode
only comes back if it was granted to be kept and taken once more (`Authority.revoked_returns_only`).

The table and the store are followed apart. After a revocation the table is rid of the modes
(`Authority.held_forgotten_revoke`), and it stays so until a reload, but for what was taken again.
The store is rid of them once it was written, and from then on both stay so.
-/

namespace IntentRouting

namespace Authority

/-- The store has a record with some key and some flag. -/
def Remembers (authority : Authority) (key : GrantKey) (bit : Fin 32) : Prop :=
  ∃ kept ∈ authority.store.records, kept.key = key ∧ bit ∈ kept.modes

/-- A request makes a flag durable under some key. It succeeds, or it fails and evicts the very
grant that it made durable, which then stays durable. -/
def Takes (authority : Authority) (request : Request) (key : GrantKey) (bit : Fin 32) : Prop :=
  ∃ now grantee modes, request = .take now grantee key.uri modes ∧ grantee.uid = key.grantee ∧
    bit ∈ modes ∧ ((authority.perform request).answer.isOk = true ∨
      ∃ grant ∈ authority.promotable grantee.uid key.uri modes, grant.key = key ∧
        key ∈ authority.victims now grantee.uid key.uri modes)

/-- In a history, a flag was granted to be kept under some key, and it was taken after that. -/
def Retaken (start : Authority) (requests : List Request) (key : GrantKey) (bit : Fin 32) : Prop :=
  ∃ before request rest, requests = before ++ request :: rest ∧
    start.GrantedToKeep before key bit ∧ (start.run before).Takes request key bit

/-- In a history, the store is written before it is loaded for the first time. -/
def WritesBeforeReload (start : Authority) (requests : List Request) : Prop :=
  ∃ before request rest, requests = before ++ request :: rest ∧ .reload ∉ before ∧
    (start.run before).writes request = true

/-- If a grant has a key, it promises a flag only if the flag was granted to be kept in a history,
and has it durable only if it was taken after that. -/
structure Forgotten (start : Authority) (requests : List Request) (key : GrantKey) (bit : Fin 32)
    (grant : Grant) : Prop where
  promised : grant.key = key → bit ∈ grant.persistable → start.GrantedToKeep requests key bit
  durable : grant.key = key → bit ∈ grant.persisted → start.Retaken requests key bit

variable {authority start : Authority} {requests : List Request} {request : Request}
  {key : GrantKey} {bit : Fin 32} {grant : Grant} {property : Grant → Prop}

/-! ## What was forgotten stays forgotten -/

theorem Retaken.append (retaken : start.Retaken requests key bit) (later : List Request) :
    start.Retaken (requests ++ later) key bit := by
  rcases retaken with ⟨before, request, rest, rfl, taken⟩
  exact ⟨before, request, rest ++ later, by simp, taken⟩

theorem Retaken.grantedToKeep (retaken : start.Retaken requests key bit) :
    start.GrantedToKeep requests key bit := by
  rcases retaken with ⟨before, request, rest, rfl, granted, _⟩
  exact granted.append _

theorem Forgotten.append (forgotten : start.Forgotten requests key bit grant)
    (later : List Request) : start.Forgotten (requests ++ later) key bit grant :=
  ⟨fun keyed promised => (forgotten.promised keyed promised).append later,
    fun keyed durable => (forgotten.durable keyed durable).append later⟩

theorem Forgotten.narrow {other : Grant} (forgotten : start.Forgotten requests key bit grant)
    (same : other.key = grant.key) (promised : bit ∈ other.persistable → bit ∈ grant.persistable)
    (durable : bit ∈ other.persisted → bit ∈ grant.persisted) :
    start.Forgotten requests key bit other := by
  constructor
  · intro keyed held
    exact forgotten.promised (same ▸ keyed) (promised held)
  · intro keyed held
    exact forgotten.durable (same ▸ keyed) (durable held)

theorem hereditary_forgotten (start : Authority) (requests : List Request) (key : GrantKey)
    (bit : Fin 32) : Grant.Hereditary (start.Forgotten requests key bit) where
  without grant modes forgotten _ :=
    forgotten.narrow rfl (fun held => (FlagSet.mem_sdiff.1 held).1)
      fun held => (FlagSet.mem_sdiff.1 held).1
  release grant modes forgotten _ :=
    forgotten.narrow rfl (fun held => (FlagSet.mem_sdiff.1 held).1)
      fun held => (FlagSet.mem_sdiff.1 held).1
  evict grant forgotten _ :=
    forgotten.narrow rfl (fun held => absurd held FlagSet.not_mem_empty)
      fun held => absurd held FlagSet.not_mem_empty
  endSession grant forgotten _ :=
    forgotten.narrow rfl (fun held => (FlagSet.mem_inter.1 held).1) id
  reload grant kept forgotten made := by
    rcases Grant.toPersisted?_eq_some_iff.1 made with ⟨_, rfl⟩
    exact ⟨fun keyed durable => (forgotten.durable keyed durable).grantedToKeep, forgotten.durable⟩

theorem forgotten_ofKey (other : GrantKey) (grantor : Nat) (now : Timestamp) :
    start.Forgotten requests key bit (.ofKey other grantor now) :=
  ⟨fun _ held => absurd held FlagSet.not_mem_empty, fun _ held => absurd held FlagSet.not_mem_empty⟩

theorem widens_forgotten (start : Authority) (requests : List Request) (key : GrantKey)
    (bit : Fin 32) (request : Request) :
    (start.run requests).Widens (start.Forgotten (requests ++ [request]) key bit) request := by
  intro current now delegation granted _ forgotten _
  rcases current.exists_prior now delegation.grantor delegation.uri delegation.flags
    delegation.grantee with ⟨prior, widened, keyed, found⟩
  have forgottenPrior : start.Forgotten (requests ++ [request]) key bit prior := by
    rcases found with found | ⟨_, rfl⟩
    · exact forgotten prior (GrantTable.find?_eq_some_iff.1 found).1
    · exact forgotten_ofKey _ _ _
  rw [widened]
  constructor
  · intro same promised
    rcases Grant.mem_persistable_widen.1 promised with promised | ⟨kept, asked⟩
    · exact forgottenPrior.promised same promised
    · exact ⟨_, delegation, mem_delegated_concat granted, keyed.symm.trans same, kept, asked⟩
  · exact forgottenPrior.durable

theorem promotes_forgotten
    (forgotten : (start.run requests).Held (start.Forgotten requests key bit)) (request : Request) :
    (start.run requests).Promotes (start.Forgotten (requests ++ [request]) key bit) request := by
  cases request with
  | take now grantee uri modes =>
      intro grant promotable saved
      rcases mem_promotable.1 promotable with ⟨member, promoted⟩
      simp only [isPromoted, decide_eq_true_eq] at promoted
      rcases promoted with ⟨user, rfl, promised⟩
      specialize forgotten grant member
      refine ⟨(forgotten.append _).promised, ?_⟩
      rintro rfl durable
      rcases FlagSet.mem_union.1 durable with durable | taken
      · exact (forgotten.append _).durable rfl durable
      · -- a grant promises only what was granted to be kept since the revocation
        have granted := forgotten.promised rfl (FlagSet.contains_iff.1 promised bit taken)
        refine ⟨requests, _, [], rfl, granted, now, grantee, modes, rfl, user.symm, taken, ?_⟩
        rcases saved with working | evicted
        · left
          rcases (start.run requests).take_cases now grantee grant.uri modes with
            ⟨_, _, none⟩ | ⟨_, ⟨_, after⟩ | ⟨failing, _⟩⟩
          · rw [none] at promotable
            cases promotable
          · rw [perform, after]
            rfl
          · rw [working] at failing
            cases failing
        · exact .inr ⟨grant, promotable, rfl, evicted⟩
  | _ => trivial

/-! ## Histories after a revocation -/

/-- Until it is made again from its store, a table that has forgotten a flag does not get it back,
unless it is taken. -/
theorem Held.perform_forgotten
    (forgotten : (start.run requests).Held (start.Forgotten requests key bit)) (request : Request)
    (running : request ≠ .reload) :
    (start.run (requests ++ [request])).Held (start.Forgotten (requests ++ [request]) key bit) := by
  rw [run_concat]
  apply Held.perform (hereditary_forgotten _ _ _ _) (forgotten.mono fun _ held => held.append _)
    request (promotes_forgotten forgotten request) (widens_forgotten start requests key bit request)
  intro reloads
  exact absurd reloads running

theorem Held.run_forgotten (requests later : List Request)
    (forgotten : (start.run requests).Held (start.Forgotten requests key bit))
    (running : .reload ∉ later) :
    (start.run (requests ++ later)).Held (start.Forgotten (requests ++ later) key bit) := by
  induction later generalizing requests with
  | nil => simpa using forgotten
  | cons request later ih =>
      rw [List.mem_cons, not_or] at running
      have first := forgotten.perform_forgotten request (Ne.symm running.1)
      simpa using ih _ first running.2

/-- If the store has forgotten the flag as well, reloading does not bring it back. -/
theorem Everywhere.run_forgotten (requests later : List Request)
    (forgotten : (start.run requests).Everywhere (start.Forgotten requests key bit)) :
    (start.run (requests ++ later)).Everywhere (start.Forgotten (requests ++ later) key bit) := by
  induction later generalizing requests with
  | nil => simpa using forgotten
  | cons request later ih =>
      have first : (start.run (requests ++ [request])).Everywhere
          (start.Forgotten (requests ++ [request]) key bit) := by
        rw [run_concat]
        exact (forgotten.mono fun _ held => held.append _).perform_of_promotes
          (hereditary_forgotten _ _ _ _) request (promotes_forgotten forgotten.held request)
          (widens_forgotten start requests key bit request)
      simpa using ih _ first

/-- Once the store was written, and before that it was not loaded, neither the table nor the store
has the flag unless it was taken again. -/
theorem Held.everywhere_forgotten (forgotten : start.Held (start.Forgotten [] key bit))
    (written : start.WritesBeforeReload requests) :
    (start.run requests).Everywhere (start.Forgotten requests key bit) := by
  rcases written with ⟨before, request, rest, rfl, running, written⟩
  have held : (start.run before).Held (start.Forgotten before key bit) :=
    forgotten.run_forgotten [] before running
  have saved : (start.run (before ++ [request])).Everywhere
      (start.Forgotten (before ++ [request]) key bit) := by
    have reloads : request ≠ .reload := by
      rintro rfl
      cases written
    have after := held.perform_forgotten request reloads
    rw [run_concat] at after ⊢
    apply after.everywhere_perform (hereditary_forgotten _ _ _ _)
    intro unwritten
    rw [written] at unwritten
    cases unwritten
  simpa using saved.run_forgotten _ rest

/-- A revocation leaves nothing of its modes in the table, whether or not it can be saved. What may
be kept is in use, so a grant that is not in use for a mode does not promise it either. -/
theorem held_forgotten_revoke {uri : Uri} {modes : Modes} {user : Option Nat}
    (backed : authority.Held Grant.Backed) (beneath : key.uri.isBeneath uri = true)
    (affected : user.all (· = key.grantee) = true) (asked : bit ∈ modes) (requests : List Request) :
    (authority.perform (.revoke uri modes user)).authority.Held
      (start.Forgotten requests key bit) := by
  have revoked : Held (start.Forgotten requests key bit)
      { authority with table := authority.revoked uri modes user } := by
    intro left member
    rcases revises_revoked.mem_grants member with ⟨prior, member, changed⟩
    suffices rid : left.key = key → bit ∉ left.persistable ∧ bit ∉ left.persisted from
      ⟨fun keyed held => absurd held (rid keyed).1, fun keyed held => absurd held (rid keyed).2⟩
    intro keyed
    simp only [afterRevoking] at changed
    split at changed
    · rcases Grant.settled_eq_some_iff.1 changed with ⟨_, rfl⟩
      exact ⟨fun held => (FlagSet.mem_sdiff.1 held).2 asked,
        fun held => (FlagSet.mem_sdiff.1 held).2 asked⟩
    · rename_i spared
      cases changed
      have unused : bit ∉ left.effective := by
        intro held
        apply spared
        subst keyed
        simp only [isRevoked, Bool.and_eq_true]
        exact ⟨⟨beneath, affected⟩, FlagSet.intersects_iff.2 ⟨bit, asked, held⟩⟩
      exact ⟨fun promised => unused (backed left member bit promised),
        fun durable => unused (FlagSet.mem_union.2 (.inr durable))⟩
  rw [perform, Outcome.withoutAnswer]
  rcases authority.revoke_cases uri modes user with ⟨_, _, after⟩ | ⟨_, after⟩
  · rw [after]
    exact revoked
  · rw [after]
    exact revoked

/-- If the revocation is saved, or the store does not have the flag anyway, the store is rid of it
as well. -/
theorem everywhere_forgotten_revoke {uri : Uri} {modes : Modes} {user : Option Nat}
    (backed : authority.Held Grant.Backed) (beneath : key.uri.isBeneath uri = true)
    (affected : user.all (· = key.grantee) = true) (asked : bit ∈ modes) (requests : List Request)
    (clean : authority.writes (.revoke uri modes user) = false → ¬ authority.Remembers key bit) :
    (authority.perform (.revoke uri modes user)).authority.Everywhere
      (start.Forgotten requests key bit) := by
  apply (held_forgotten_revoke backed beneath affected asked requests).everywhere_perform
    (hereditary_forgotten _ _ _ _)
  intro unwritten kept stored
  have absent : kept.key = key → bit ∉ kept.modes :=
    fun keyed held => clean unwritten ⟨kept, stored, keyed, held⟩
  exact ⟨fun keyed held => absurd held (absent keyed), fun keyed held => absurd held (absent keyed)⟩

/-! ## Reloading after a revocation -/

theorem records_keys_nodup_run (place : Placement) (settings : PermissionSettings)
    (requests : List Request) :
    (((new place settings .empty).run requests).store.records.map PersistedGrant.key).Nodup := by
  induction requests using List.reverseRecOn with
  | nil => exact .nil
  | append_singleton requests request ih =>
      rw [run_concat, records_perform]
      split
      · exact GrantTable.persisted_keys_nodup
      · exact ih

theorem mem_effectiveAt_reload (nodup : (authority.store.records.map PersistedGrant.key).Nodup) :
    bit ∈ authority.reload.table.effectiveAt key ↔ authority.Remembers key bit := by
  rw [GrantTable.mem_effectiveAt]
  constructor
  · rintro ⟨grant, member, rfl, held⟩
    rcases exists_record_of_mem_load member with ⟨kept, stored, rfl⟩
    refine ⟨kept, stored, rfl, ?_⟩
    rcases FlagSet.mem_union.1 held with held | held
    · exact absurd held FlagSet.not_mem_empty
    · exact held
  · rintro ⟨kept, stored, keyed, held⟩
    have found : authority.reload.table.find? key = some (.ofPersisted kept) := by
      rw [reload, find?_load, (GrantStore.find?_of_nodup nodup).2 ⟨stored, keyed⟩, Option.map_some]
    rcases GrantTable.find?_eq_some_iff.1 found with ⟨member, keyed⟩
    exact ⟨_, member, keyed, FlagSet.mem_union.2 (.inr held)⟩

theorem records_run_of_unwritten (running : .reload ∉ requests)
    (unwritten : ¬ start.WritesBeforeReload requests) :
    (start.run requests).store.records = start.store.records := by
  induction requests using List.reverseRecOn with
  | nil => rfl
  | append_singleton requests request ih =>
      rw [List.mem_append, not_or] at running
      have before : ¬ start.WritesBeforeReload requests := by
        rintro ⟨before, other, rest, rfl, written⟩
        exact unwritten ⟨before, other, rest ++ [request], by simp, written⟩
      have last : ¬ (start.run requests).writes request = true := by
        intro written
        exact unwritten ⟨requests, request, [], rfl, running.1, written⟩
      rw [run_concat, records_perform, if_neg last]
      exact ih running.1 before

theorem writesBeforeReload_cons (running : request ≠ .reload) :
    start.WritesBeforeReload (request :: requests) ↔
      start.writes request = true ∨
        (start.perform request).authority.WritesBeforeReload requests := by
  constructor
  · rintro ⟨before, other, rest, parts, reloads, written⟩
    cases before with
    | nil =>
        cases parts
        exact .inl written
    | cons first before =>
        cases parts
        exact .inr ⟨before, other, rest, rfl, fun member => reloads (.tail _ member), written⟩
  · rintro (written | ⟨before, other, rest, rfl, reloads, written⟩)
    · exact ⟨[], request, requests, rfl, List.not_mem_nil, written⟩
    · refine ⟨request :: before, other, rest, rfl, ?_, written⟩
      rw [List.mem_cons, not_or]
      exact ⟨Ne.symm running, reloads⟩

/-- If reloading gives back a flag that was revoked, then it was granted to be kept and taken again
after the revocation, or the store had it when it was revoked and was not written, by the revocation
or later, before it was loaded for the first time. In the second case that first loading does give
it back. -/
theorem revoked_returns_only (place : Placement) (settings : PermissionSettings)
    (earlier later : List Request) {uri : Uri} {modes : Modes} {user : Option Nat}
    (beneath : key.uri.isBeneath uri = true) (affected : user.all (· = key.grantee) = true)
    (asked : bit ∈ modes) :
    let before := (new place settings .empty).run earlier
    let after := (before.perform (.revoke uri modes user)).authority
    let stale := before.Remembers key bit ∧
      ¬ before.WritesBeforeReload (.revoke uri modes user :: later)
    (bit ∈ (after.run later).reload.table.effectiveAt key →
        after.Retaken later key bit ∨ stale) ∧
      (stale → .reload ∉ later → bit ∈ (after.run later).reload.table.effectiveAt key) := by
  intro before after stale
  have backed := (backed_run place settings earlier).held
  have nodup : ((after.run later).store.records.map PersistedGrant.key).Nodup := by
    have records :=
      records_keys_nodup_run place settings (earlier ++ .revoke uri modes user :: later)
    rwa [run_append] at records
  rw [mem_effectiveAt_reload nodup]
  constructor
  · rintro ⟨kept, stored, keyed, held⟩
    by_cases old : stale
    · exact .inr old
    left
    have everywhere : (after.run later).Everywhere (after.Forgotten later key bit) := by
      by_cases written : after.WritesBeforeReload later
      · exact (held_forgotten_revoke backed beneath affected asked []).everywhere_forgotten written
      · apply Everywhere.run_forgotten [] later
        apply everywhere_forgotten_revoke backed beneath affected asked
        intro unsaved remembers
        refine old ⟨remembers, ?_⟩
        rw [writesBeforeReload_cons (by simp), unsaved]
        exact fun saved => saved.elim nofun written
    exact (everywhere.stored kept stored).durable keyed held
  · rintro ⟨⟨kept, stored, remembered⟩, unwritten⟩ running
    rw [← records_run_of_unwritten (by simpa using running) unwritten] at stored
    exact ⟨kept, stored, remembered⟩

/-- A revocation of a note cannot be saved, but the store can be written again when what lies
beneath the note is taken. -/
theorem revocation_of_note_saved_later :
    let before := (Notes.start 512).run [.register Notes.provider, Notes.sharing Notes.readToKeep,
      .take (Notes.moment 2) Notes.viewer Notes.note Modes.read, .storeFails true]
    let after := (before.perform (.revoke Notes.note Modes.read (some Notes.viewer.uid))).authority
    let later := [.storeFails false,
      .grant (Notes.moment 3) Notes.owner Notes.draft Notes.readToKeep Notes.viewer,
      .take (Notes.moment 4) Notes.viewer Notes.draft Modes.read]
    let key : GrantKey := ⟨Notes.viewer.uid, Notes.note, false⟩
    key.uri.isBeneath Notes.note = true ∧ (some Notes.viewer.uid).all (· = key.grantee) = true ∧
      0 ∈ Modes.read ∧ 0 ∉ (after.run later).reload.table.effectiveAt key := by
  intro before after later key
  have beneath : key.uri.isBeneath Notes.note = true := Uri.isBeneath_self
  have affected : (some Notes.viewer.uid).all (· = key.grantee) = true := by decide
  have asked : 0 ∈ Modes.read := by decide
  refine ⟨beneath, affected, asked, ?_⟩
  intro back
  rcases (revoked_returns_only _ _ _ later beneath affected asked).1 back with
    retaken | ⟨_, unwritten⟩
  · rcases retaken.grantedToKeep with ⟨authority, delegation, granted, keyed, _⟩
    have others : ∀ step ∈ after.delegated later, step.2.key ≠ key := by decide +kernel
    exact others _ granted keyed
  · apply unwritten
    exact ⟨[_, _, _], _, [], rfl, by simp, by decide +kernel⟩

/-- A revocation of a note cannot be saved, and reloading gives the viewer the note back. -/
theorem unsaved_revocation_returns :
    let after := (Notes.start 512).run [.register Notes.provider, Notes.sharing Notes.readToKeep,
      .take (Notes.moment 2) Notes.viewer Notes.note Modes.read, .storeFails true,
      .revoke Notes.note Modes.read none]
    let key : GrantKey := ⟨Notes.viewer.uid, Notes.note, false⟩
    0 ∉ after.table.effectiveAt key ∧
      after.check Notes.viewer Notes.note Modes.read = false ∧
      0 ∈ after.reload.table.effectiveAt key ∧
      after.reload.check Notes.viewer Notes.note Modes.read = true := by
  decide +kernel

end Authority

end IntentRouting
