import IntentRouting.Proofs.Permission.Invariant

/-!
# Sound grants

The three sets of modes of a grant, its process and its moments are separate data, but not all of
their values occur. What is durable was granted to be kept; a grant without modes is never in the
table; a durable grant has the moment of its last change; and a grant of which the process has ended
has no other modes than its durable ones. This holds in every history, also where the store cannot
be written (`Authority.sound_run`).

What may be kept, moreover, is in use: a mode is promised only together with its transient part, and
the end of a process takes the promise away with it (`Grant.Backed`). All conditions together are
`Grant.WellFormed`, which speaks of the sets of modes as a whole.
-/

namespace IntentRouting

/-- What holds of every grant that there can be. -/
structure Grant.Sound (grant : Grant) : Prop where
  promised : ∀ bit ∈ grant.persisted, bit ∈ grant.persistable
  nonempty : grant.isEmpty = false
  dated : grant.persisted.isEmpty = false → grant.persistedAt.isSome = true
  /-- Without a process only the durable modes are left. -/
  idle : grant.session = none → (∀ bit, bit ∉ grant.transient) ∧
    ∀ bit ∈ grant.persistable, bit ∈ grant.persisted

namespace Grant

theorem stable_sound : Stable Sound where
  without grant modes sound nonempty := by
    refine ⟨?_, nonempty, ?_, ?_⟩
    · intro bit durable
      rcases FlagSet.mem_sdiff.1 durable with ⟨durable, kept⟩
      exact FlagSet.mem_sdiff.2 ⟨sound.promised bit durable, kept⟩
    · intro some
      rcases FlagSet.isEmpty_eq_false_iff.1 some with ⟨bit, durable⟩
      exact sound.dated (FlagSet.isEmpty_eq_false_iff.2 ⟨bit, (FlagSet.mem_sdiff.1 durable).1⟩)
    · intro ended
      rcases sound.idle ended with ⟨none, durable⟩
      constructor
      · intro bit held
        exact none bit (FlagSet.mem_sdiff.1 held).1
      · intro bit promised
        rcases FlagSet.mem_sdiff.1 promised with ⟨promised, kept⟩
        exact FlagSet.mem_sdiff.2 ⟨durable bit promised, kept⟩
  promote grant modes now sound promised := by
    refine ⟨?_, ?_, fun _ => rfl, ?_⟩
    · intro bit durable
      rcases FlagSet.mem_union.1 durable with durable | taken
      · exact sound.promised bit durable
      · exact FlagSet.contains_iff.1 promised bit taken
    · rcases isEmpty_eq_false_iff.1 sound.nonempty with ⟨bit, held⟩
      exact isEmpty_eq_false_iff.2 ⟨bit,
        held.imp_right (.imp_right fun durable => FlagSet.mem_union.2 (.inl durable))⟩
    · intro ended
      rcases sound.idle ended with ⟨none, durable⟩
      exact ⟨none, fun bit promised => FlagSet.mem_union.2 (.inl (durable bit promised))⟩
  release grant modes sound nonempty := by
    refine ⟨?_, nonempty, ?_, ?_⟩
    · intro bit durable
      rcases FlagSet.mem_sdiff.1 durable with ⟨durable, kept⟩
      exact FlagSet.mem_sdiff.2 ⟨sound.promised bit durable, kept⟩
    · intro some
      have dated : (grant.release modes).persistedAt = grant.persistedAt :=
        if_neg (by simpa [release] using some)
      rcases FlagSet.isEmpty_eq_false_iff.1 some with ⟨bit, durable⟩
      rw [dated]
      exact sound.dated (FlagSet.isEmpty_eq_false_iff.2 ⟨bit, (FlagSet.mem_sdiff.1 durable).1⟩)
    · intro ended
      rcases sound.idle ended with ⟨none, durable⟩
      refine ⟨none, ?_⟩
      intro bit promised
      rcases FlagSet.mem_sdiff.1 promised with ⟨promised, kept⟩
      exact FlagSet.mem_sdiff.2 ⟨durable bit promised, kept⟩
  evict grant sound nonempty := by
    refine ⟨fun bit durable => durable, nonempty, fun some => absurd some (by simp [evict]), ?_⟩
    intro ended
    exact ⟨(sound.idle ended).1, fun bit promised => promised⟩
  endSession grant sound nonempty := by
    refine ⟨?_, nonempty, sound.dated, ?_⟩
    · intro bit durable
      exact FlagSet.mem_inter.2 ⟨sound.promised bit durable, durable⟩
    · intro _
      exact ⟨fun bit => FlagSet.not_mem_empty, fun bit promised => (FlagSet.mem_inter.1 promised).2⟩
  reload grant kept sound made := by
    rcases toPersisted?_eq_some_iff.1 made with ⟨some, rfl⟩
    rcases FlagSet.isEmpty_eq_false_iff.1 some with ⟨bit, durable⟩
    refine ⟨fun bit durable => durable, isEmpty_eq_false_iff.2 ⟨bit, .inr (.inr durable)⟩,
      fun _ => rfl, ?_⟩
    intro _
    exact ⟨fun bit => FlagSet.not_mem_empty, fun bit promised => promised⟩

/-- A grant that gets modes is sound if what it had before was. -/
theorem sound_widen {prior : Grant} {grantor pid : Nat} {modes : Modes} {persistable : Bool}
    (promised : ∀ bit ∈ prior.persisted, bit ∈ prior.persistable)
    (dated : prior.persisted.isEmpty = false → prior.persistedAt.isSome = true)
    (asked : modes.isEmpty = false) : (prior.widen grantor pid modes persistable).Sound := by
  refine ⟨?_, ?_, dated, fun ended => nomatch ended⟩
  · intro bit durable
    exact mem_persistable_widen.2 (.inl (promised bit durable))
  · rcases FlagSet.isEmpty_eq_false_iff.1 asked with ⟨bit, asked⟩
    exact isEmpty_eq_false_iff.2 ⟨bit, .inl (FlagSet.mem_union.2 (.inr asked))⟩

end Grant

namespace Authority

theorem widens_sound (authority : Authority) (request : Request) :
    authority.Widens Grant.Sound request := by
  intro current now delegation _ _ sound allowed
  have asked := (grantFault?_eq_none_iff.1 allowed).1
  rcases current.exists_prior now delegation.grantor delegation.uri delegation.flags
    delegation.grantee with ⟨prior, widened, _, found⟩
  rw [widened]
  rcases found with found | ⟨_, rfl⟩
  · have sound := sound prior (GrantTable.find?_eq_some_iff.1 found).1
    exact Grant.sound_widen sound.promised sound.dated asked
  · exact Grant.sound_widen (fun _ durable => durable)
      (fun some => absurd some (by simp [Grant.ofKey])) asked

/-- All grants of a history are sound. -/
theorem sound_run (place : Placement) (settings : PermissionSettings) (requests : List Request) :
    ((new place settings .empty).run requests).Everywhere Grant.Sound :=
  (everywhere_new _ place settings).run Grant.stable_sound widens_sound requests

end Authority

/-! ## What is promised is in use -/

namespace Grant

/-- What the grantee may keep can be used. -/
def Backed (grant : Grant) : Prop := ∀ bit ∈ grant.persistable, bit ∈ grant.effective

theorem stable_backed : Stable Backed where
  without grant modes backed _ := by
    intro bit promised
    rcases FlagSet.mem_sdiff.1 promised with ⟨promised, kept⟩
    rcases FlagSet.mem_union.1 (backed bit promised) with transient | durable
    · exact FlagSet.mem_union.2 (.inl (FlagSet.mem_sdiff.2 ⟨transient, kept⟩))
    · exact FlagSet.mem_union.2 (.inr (FlagSet.mem_sdiff.2 ⟨durable, kept⟩))
  promote grant modes now backed _ := by
    intro bit promised
    rcases FlagSet.mem_union.1 (backed bit promised) with transient | durable
    · exact FlagSet.mem_union.2 (.inl transient)
    · exact FlagSet.mem_union.2 (.inr (FlagSet.mem_union.2 (.inl durable)))
  release grant modes backed _ := by
    intro bit promised
    rcases FlagSet.mem_sdiff.1 promised with ⟨promised, kept⟩
    rcases FlagSet.mem_union.1 (backed bit promised) with transient | durable
    · exact FlagSet.mem_union.2 (.inl transient)
    · exact FlagSet.mem_union.2 (.inr (FlagSet.mem_sdiff.2 ⟨durable, kept⟩))
  evict grant _ _ := by
    intro bit promised
    exact absurd promised FlagSet.not_mem_empty
  endSession grant _ _ := by
    intro bit promised
    exact FlagSet.mem_union.2 (.inr (FlagSet.mem_inter.1 promised).2)
  reload grant kept _ _ := by
    intro bit promised
    exact FlagSet.mem_union.2 (.inr promised)

theorem Backed.widen {prior : Grant} {grantor pid : Nat} {modes : Modes} {persistable : Bool}
    (backed : prior.Backed) : (prior.widen grantor pid modes persistable).Backed := by
  intro bit promised
  rcases mem_persistable_widen.1 promised with promised | ⟨_, asked⟩
  · rcases FlagSet.mem_union.1 (backed bit promised) with transient | durable
    · exact FlagSet.mem_union.2 (.inl (FlagSet.mem_union.2 (.inl transient)))
    · exact FlagSet.mem_union.2 (.inr durable)
  · exact FlagSet.mem_union.2 (.inl (FlagSet.mem_union.2 (.inr asked)))

/-- The conditions under which the parts of a grant go together. -/
structure WellFormed (grant : Grant) : Prop where
  promised : grant.persistable.contains grant.persisted = true
  backed : (grant.transient ∪ grant.persisted).contains grant.persistable = true
  nonempty : grant.isEmpty = false
  dated : grant.persisted.isEmpty = false → grant.persistedAt.isSome = true
  idle : grant.session = none →
    grant.transient.isEmpty = true ∧ grant.persistable = grant.persisted

theorem wellFormed_of_sound {grant : Grant} (sound : grant.Sound) (backed : grant.Backed) :
    grant.WellFormed := by
  refine ⟨?_, ?_, sound.nonempty, sound.dated, ?_⟩
  · exact FlagSet.contains_iff.2 sound.promised
  · exact FlagSet.contains_iff.2 backed
  · intro ended
    rcases sound.idle ended with ⟨none, durable⟩
    refine ⟨FlagSet.isEmpty_iff.2 none, ?_⟩
    ext bit
    exact ⟨durable bit, sound.promised bit⟩

end Grant

namespace Authority

theorem widens_backed (authority : Authority) (request : Request) :
    authority.Widens Grant.Backed request := by
  intro current now delegation _ _ backed _
  rcases current.exists_prior now delegation.grantor delegation.uri delegation.flags
    delegation.grantee with ⟨prior, widened, _, found⟩
  rw [widened]
  apply Grant.Backed.widen
  rcases found with found | ⟨_, rfl⟩
  · exact backed prior (GrantTable.find?_eq_some_iff.1 found).1
  · intro bit promised
    exact absurd promised FlagSet.not_mem_empty

/-- What a grant may keep can be used, whatever the store had at the beginning of a history. -/
theorem backed_run_load (place : Placement) (settings : PermissionSettings) (store : GrantStore)
    (requests : List Request) :
    ((load place settings store).run requests).Everywhere Grant.Backed := by
  have stored : ∀ kept ∈ store.records, (Grant.ofPersisted kept).Backed := by
    intro kept _ bit promised
    exact FlagSet.mem_union.2 (.inr promised)
  have loaded : (load place settings store).Everywhere Grant.Backed := ⟨held_load stored, stored⟩
  exact loaded.run Grant.stable_backed widens_backed requests

theorem backed_run (place : Placement) (settings : PermissionSettings) (requests : List Request) :
    ((new place settings .empty).run requests).Everywhere Grant.Backed :=
  backed_run_load place settings .empty requests

/-- After every history, whichever of its requests could not be saved, each grant is found under its
own key and under no other, no two grants have the same key, and all grants are well-formed. -/
theorem wellFormed_run (place : Placement) (settings : PermissionSettings)
    (requests : List Request) :
    let table := ((new place settings .empty).run requests).table
    (∀ key grant, table.find? key = some grant ↔ grant ∈ table.grants ∧ grant.key = key) ∧
      (table.grants.map Grant.key).Nodup ∧ ∀ grant ∈ table.grants, grant.WellFormed := by
  intro table
  refine ⟨?_, ?_, ?_⟩
  · intro key grant
    exact GrantTable.find?_eq_some_iff
  · exact List.pairwise_map.2 GrantTable.grants_distinct
  · intro grant member
    have sound := (sound_run place settings requests).held grant member
    have backed := (backed_run place settings requests).held grant member
    exact Grant.wellFormed_of_sound sound backed

end Authority

end IntentRouting
