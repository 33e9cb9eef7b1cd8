import IntentRouting.Permission.Authority

/-!
# Access

What a check comes down to. A caller holds a mode on a URI as a privileged user, as the owner of its
provider, or by one of its grants that count: those for exactly the URI, and, if they are respected,
those for everything beneath a URI that the URI lies beneath. All such grants are in the shard of
the URI, so `Authority.check` sees them although it looks at that shard alone.

The statements are about single flags, since a check of several flags is one of each of them. Who
holds a flag is stated over `GrantTable.grants`, so the proofs that follow never open the table.
-/

namespace IntentRouting

theorem Grant.isBeneath_of_covers {grant : Grant} {uri : Uri} (covers : grant.covers uri = true) :
    uri.isBeneath grant.uri = true := by
  simp only [Grant.covers] at covers
  split at covers
  · exact covers
  · rw [of_decide_eq_true covers]
    exact Uri.isBeneath_self

/-- Whether a grant with a key is about a URI. -/
def GrantKey.covers (key : GrantKey) (uri : Uri) : Bool :=
  if key.beneath then uri.isBeneath key.uri else key.uri = uri

/-- The modes that can be used by the grant of a key. -/
def GrantTable.effectiveAt (table : GrantTable) (key : GrantKey) : Modes :=
  match table.find? key with
  | some grant => grant.effective
  | none => .empty

theorem GrantTable.mem_effectiveAt {table : GrantTable} {key : GrantKey} {bit : Fin 32} :
    bit ∈ table.effectiveAt key ↔
      ∃ grant ∈ table.grants, grant.key = key ∧ bit ∈ grant.effective := by
  simp only [effectiveAt]
  constructor
  · intro held
    split at held
    · rename_i grant found
      rcases find?_eq_some_iff.1 found with ⟨member, keyed⟩
      exact ⟨grant, member, keyed, held⟩
    · simp at held
  · rintro ⟨grant, member, keyed, held⟩
    simpa [find?_eq_some_iff.2 ⟨member, keyed⟩] using held

/-- One of the sets of modes of the grant of a key. -/
def GrantTable.modesAt (table : GrantTable) (part : Grant → Modes) (key : GrantKey) : Modes :=
  (table.find? key).elim .empty part

theorem GrantTable.mem_modesAt {table : GrantTable} {part : Grant → Modes} {key : GrantKey}
    {bit : Fin 32} :
    bit ∈ table.modesAt part key ↔ ∃ grant ∈ table.find? key, bit ∈ part grant := by
  rw [modesAt]
  cases table.find? key <;> simp

namespace Authority

variable {authority : Authority} {caller : Identity} {uid : Nat} {uri : Uri} {bit : Fin 32}

/-- A user has a flag on a URI by a grant that counts. -/
def IsGranted (authority : Authority) (uid : Nat) (uri : Uri) (bit : Fin 32) : Prop :=
  ∃ grant ∈ authority.table.grants, grant.grantee = uid ∧ grant.covers uri = true ∧
    (grant.beneath = true → authority.settings.prefixGrants = true) ∧ bit ∈ grant.effective

/-- Whether a user has a flag depends on the modes of each key alone. -/
theorem isGranted_iff : authority.IsGranted uid uri bit ↔
    ∃ key : GrantKey, key.grantee = uid ∧ key.covers uri = true ∧
      (key.beneath = true → authority.settings.prefixGrants = true) ∧
        bit ∈ authority.table.effectiveAt key := by
  simp only [GrantTable.mem_effectiveAt]
  constructor
  · rintro ⟨grant, member, grantee, covers, counts, held⟩
    exact ⟨grant.key, grantee, covers, counts, grant, member, rfl, held⟩
  · rintro ⟨key, grantee, covers, counts, grant, member, rfl, held⟩
    exact ⟨grant, member, grantee, covers, counts, held⟩

theorem mem_exactModes : bit ∈ authority.exactModes uid uri ↔
    ∃ grant ∈ authority.table.grants, grant.key = ⟨uid, uri, false⟩ ∧ bit ∈ grant.effective :=
  GrantTable.mem_effectiveAt

theorem mem_foldl_effective {shard : Shard} {counts : Grant → Bool} {held : Modes} :
    bit ∈ shard.foldl (fun held grant => if counts grant then held ∪ grant.effective else held)
        held ↔
      bit ∈ held ∨ ∃ grant ∈ shard, counts grant = true ∧ bit ∈ grant.effective := by
  induction shard generalizing held with
  | nil => simp
  | cons first rest ih =>
      rw [List.foldl_cons, ih]
      by_cases counted : counts first = true <;> simp [counted, or_assoc]

theorem mem_prefixModes : bit ∈ authority.prefixModes uid uri ↔
    ∃ grant ∈ authority.table.grants, grant.beneath = true ∧ grant.grantee = uid ∧
      grant.covers uri = true ∧ bit ∈ grant.effective := by
  rw [prefixModes, mem_foldl_effective]
  simp only [FlagSet.not_mem_empty, false_or, Bool.and_eq_true, decide_eq_true_eq, and_assoc]
  constructor
  · rintro ⟨grant, member, rest⟩
    exact ⟨grant, (GrantTable.mem_shard_iff.1 member).1, rest⟩
  · rintro ⟨grant, member, beneath, grantee, covers, held⟩
    have inShard := GrantTable.mem_shard_iff.2 ⟨member,
      (GrantTable.index_eq_of_isBeneath (Grant.isBeneath_of_covers covers)).symm⟩
    exact ⟨grant, inShard, beneath, grantee, covers, held⟩

theorem mem_grantedModes_iff_parts : bit ∈ authority.grantedModes uid uri ↔
    bit ∈ authority.exactModes uid uri ∨
      authority.settings.prefixGrants = true ∧ bit ∈ authority.prefixModes uid uri := by
  rw [grantedModes, FlagSet.mem_union]
  by_cases respected : authority.settings.prefixGrants = true <;> simp [respected]

theorem mem_grantedModes :
    bit ∈ authority.grantedModes uid uri ↔ authority.IsGranted uid uri bit := by
  rw [mem_grantedModes_iff_parts, mem_exactModes, mem_prefixModes]
  constructor
  · rintro (⟨grant, member, keyed, held⟩ |
      ⟨respected, grant, member, beneath, grantee, covers, held⟩)
    · simp only [Grant.key, GrantKey.mk.injEq] at keyed
      rcases keyed with ⟨rfl, rfl, exact⟩
      exact ⟨grant, member, rfl, by simp [Grant.covers, exact], by simp [exact], held⟩
    · exact ⟨grant, member, grantee, covers, fun _ => respected, held⟩
  · rintro ⟨grant, member, rfl, covers, counts, held⟩
    cases beneath : grant.beneath with
    | true => exact .inr ⟨counts beneath, grant, member, beneath, rfl, covers, held⟩
    | false =>
        have same : grant.uri = uri := by simpa [Grant.covers, beneath] using covers
        exact .inl ⟨grant, member, by simp [Grant.key, beneath, same], held⟩

theorem check_iff {modes : Modes} : authority.check caller uri modes = true ↔
    modes.isEmpty = true ∨ authority.holdsOwnerAccess caller uri = true ∨
      uri.isContent = true ∧ ∀ bit ∈ modes, authority.IsGranted caller.uid uri bit := by
  simp [check, FlagSet.contains_iff, mem_grantedModes, or_assoc]

theorem check_single_iff : authority.check caller uri (.single bit) = true ↔
    authority.holdsOwnerAccess caller uri = true ∨
      uri.isContent = true ∧ authority.IsGranted caller.uid uri bit := by
  simp [check_iff]

/-- Access in some modes is access in each of them. -/
theorem check_single_of_check {modes : Modes} (allowed : authority.check caller uri modes = true)
    (asked : bit ∈ modes) : authority.check caller uri (.single bit) = true := by
  rw [check_single_iff]
  rcases check_iff.1 allowed with none | owner | ⟨content, granted⟩
  · exact absurd asked (FlagSet.isEmpty_iff.1 none bit)
  · exact .inl owner
  · exact .inr ⟨content, granted bit asked⟩

theorem holdsOwnerAccess_congr {other : Authority}
    (providers : authority.providers = other.providers) :
    authority.holdsOwnerAccess caller uri = other.holdsOwnerAccess caller uri := by
  have provider? : authority.provider? = other.provider? := by
    funext name
    rw [Authority.provider?, Authority.provider?, providers]
  rw [holdsOwnerAccess, holdsOwnerAccess, owns, owns, provider?]

/-- Who may use what depends on the providers and on the modes of each key alone. -/
theorem check_congr {other : Authority} {modes : Modes}
    (providers : authority.providers = other.providers)
    (settings : authority.settings = other.settings)
    (effective : ∀ key, authority.table.effectiveAt key = other.table.effectiveAt key) :
    authority.check caller uri modes = other.check caller uri modes := by
  rw [Bool.eq_iff_iff, check_iff, check_iff]
  simp only [isGranted_iff, holdsOwnerAccess_congr providers, settings, effective]

/-- Whoever owns the provider of a URI, or is privileged, has the same access to what lies beneath
it. -/
theorem holdsOwnerAccess_of_isBeneath {lower : Uri} (beneath : lower.isBeneath uri = true) :
    authority.holdsOwnerAccess caller lower = authority.holdsOwnerAccess caller uri := by
  rcases Uri.isBeneath_iff.1 beneath with ⟨scheme, name, _⟩
  simp only [holdsOwnerAccess, owns, Uri.isContent, scheme, name]

end Authority

end IntentRouting
