import IntentRouting.Proofs.Permission.Access
import IntentRouting.Proofs.Permission.Revision

/-!
# Checks as searches

What a caller was granted on a URI can come from several of its grants. A check can therefore be
made as a search: it begins with the grant for exactly the URI, meets the grants of the shard one
after the other, adds up the modes of those that extend to the URI, and ends as soon as nothing is
missing. Neither the order in which grants are met nor the order in which they were put into the
table is a part of the question, so the answer must not depend on them.

It does not, since modes only add up: a search that ends early would find the same at the end
(`Authority.search_eq_contains_foldl`), and what is found at the end is the union over all grants
that count, whatever their order.
-/

namespace IntentRouting

namespace GrantTable

variable {inserted : Shard} {grant : Grant}

/-- A table that is filled with grants under different keys has these grants. -/
theorem mem_grants_foldl_put (distinct : inserted.Distinct) (place : Placement) (count : Nat) :
    grant ∈ (inserted.foldl put (.empty place count)).grants ↔ grant ∈ inserted := by
  have found : (inserted.foldl put (.empty place count)).find? grant.key =
      inserted.find? grant.key := by
    rw [find?_foldl put Grant.key (fun grant _ => some grant) (fun _ _ _ => find?_put),
      filter_key_eq distinct, find?_empty]
    cases inserted.find? grant.key <;> rfl
  simp [mem_grants_iff, found, Shard.find?_eq_some_iff distinct]

end GrantTable

namespace Authority

variable {authority : Authority} {caller : Identity} {uid : Nat} {uri : Uri} {modes : Modes}
  {bit : Fin 32} {visited : Shard}

/-- Whether a grant is one of a user for everything beneath some URI, and a URI lies there. -/
def reaches (uid : Nat) (uri : Uri) (grant : Grant) : Bool :=
  grant.beneath && grant.grantee = uid && grant.covers uri

/-- Adds the modes of those grants that count to what is held, until nothing is missing. -/
def search (counts : Grant → Bool) (asked : Modes) : Modes → List Grant → Bool
  | _, [] => false
  | held, grant :: rest =>
      if counts grant then
        (held ∪ grant.effective).contains asked ||
          search counts asked (held ∪ grant.effective) rest
      else search counts asked held rest

/-- Whether a user was granted some modes on a URI. The grants are met in some order, after the one
for exactly the URI. -/
def isFound (authority : Authority) (visited : List Grant) (uid : Nat) (uri : Uri)
    (modes : Modes) : Bool :=
  (authority.exactModes uid uri).contains modes ||
    (authority.settings.prefixGrants &&
      search (reaches uid uri) modes (authority.exactModes uid uri) visited)

/-- A check that looks at grants in some order, and only as long as the answer is not known. -/
def checkVisiting (authority : Authority) (visited : List Grant) (caller : Identity) (uri : Uri)
    (modes : Modes) : Bool :=
  modes.isEmpty || authority.holdsOwnerAccess caller uri ||
    (uri.isContent && authority.isFound visited caller.uid uri modes)

/-- To end early is to find what would be found at the end, because modes only add up. -/
theorem search_eq_contains_foldl {counts : Grant → Bool} {asked held : Modes}
    (missing : held.contains asked = false) :
    search counts asked held visited =
      (visited.foldl (fun held grant => if counts grant then held ∪ grant.effective else held)
        held).contains asked := by
  induction visited generalizing held with
  | nil => exact missing.symm
  | cons grant rest ih =>
      rw [search, List.foldl_cons]
      split
      · cases enough : (held ∪ grant.effective).contains asked with
        | false => simpa using ih enough
        | true =>
            rw [Bool.true_or, eq_comm, FlagSet.contains_iff]
            intro bit wanted
            apply mem_foldl_effective.2
            left
            exact FlagSet.contains_iff.1 enough bit wanted
      · exact ih missing

theorem mem_grantedModes_iff_shard : bit ∈ authority.grantedModes uid uri ↔
    bit ∈ authority.exactModes uid uri ∨ authority.settings.prefixGrants = true ∧
      ∃ grant ∈ authority.table.shard uri, reaches uid uri grant = true ∧
        bit ∈ grant.effective := by
  have added : bit ∈ authority.prefixModes uid uri ↔ bit ∈ (.empty : Modes) ∨
      ∃ grant ∈ authority.table.shard uri, reaches uid uri grant = true ∧ bit ∈ grant.effective :=
    mem_foldl_effective
  simp [mem_grantedModes_iff_parts, added]

/-- Every order in which the grants of the shard are met leads to the same answer. -/
theorem isFound_eq_contains (order : visited.Perm (authority.table.shard uri)) :
    authority.isFound visited uid uri modes =
      (authority.grantedModes uid uri).contains modes := by
  rw [Bool.eq_iff_iff, FlagSet.contains_iff, isFound]
  simp only [mem_grantedModes_iff_shard, ← order.mem_iff]
  cases enough : (authority.exactModes uid uri).contains modes with
  | true =>
      apply iff_of_true rfl
      intro bit wanted
      left
      exact FlagSet.contains_iff.1 enough bit wanted
  | false =>
      cases authority.settings.prefixGrants with
      | true => simp [search_eq_contains_foldl enough, FlagSet.contains_iff, mem_foldl_effective]
      | false =>
          have missing := mt FlagSet.contains_iff.2 (Bool.eq_false_iff.1 enough)
          simpa using missing

theorem checkVisiting_eq_check (order : visited.Perm (authority.table.shard uri)) :
    authority.checkVisiting visited caller uri modes = authority.check caller uri modes := by
  rw [checkVisiting, isFound_eq_contains order, check]

/-- The grants alone decide, not how they came into the table. -/
theorem check_refilled {inserted : List Grant} (place : Placement) (count : Nat)
    (order : inserted.Perm authority.table.grants) :
    check { authority with table := inserted.foldl GrantTable.put (.empty place count) }
        caller uri modes =
      authority.check caller uri modes := by
  have distinct : Shard.Distinct inserted :=
    (order.pairwise_iff fun apart => apart.symm).2 GrantTable.grants_distinct
  have same : ∀ grant, grant ∈ (inserted.foldl GrantTable.put (.empty place count)).grants ↔
      grant ∈ authority.table.grants :=
    fun grant => (GrantTable.mem_grants_foldl_put distinct place count).trans order.mem_iff
  rw [Bool.eq_iff_iff, check_iff, check_iff]
  simp only [IsGranted, same]
  exact Iff.rfl

theorem holdsOwnerAccess_iff : authority.holdsOwnerAccess caller uri = true ↔
    caller.isPrivileged = true ∨ uri.isContent = true ∧ ∃ name ∈ uri.authority,
      ∃ provider ∈ authority.provider? name, provider.ownerUid = caller.uid := by
  rw [holdsOwnerAccess, owns, Bool.or_eq_true, Bool.and_eq_true]
  cases uri.authority with
  | none => simp
  | some name => cases found : authority.provider? name <;> simp [found]

theorem isGranted_iff_exact_or_beneath : authority.IsGranted uid uri bit ↔
    (∃ grant ∈ authority.table.find? ⟨uid, uri, false⟩, bit ∈ grant.effective) ∨
      authority.settings.prefixGrants = true ∧ ∃ grant ∈ authority.table.grants,
        grant.grantee = uid ∧ grant.beneath = true ∧ uri.isBeneath grant.uri = true ∧
          bit ∈ grant.effective := by
  have exact : bit ∈ authority.exactModes uid uri ↔
      ∃ grant ∈ authority.table.find? ⟨uid, uri, false⟩, bit ∈ grant.effective := by
    rw [exactModes]
    cases authority.table.find? ⟨uid, uri, false⟩ <;> simp
  rw [← mem_grantedModes, mem_grantedModes_iff_parts, mem_prefixModes, exact]
  apply or_congr_right
  apply and_congr_right
  intro _
  apply exists_congr
  intro grant
  cases reach : grant.beneath <;> simp [Grant.covers, reach]

theorem check_union {first second : Modes} : authority.check caller uri (first ∪ second) =
    (authority.check caller uri first && authority.check caller uri second) := by
  rw [Bool.eq_iff_iff, Bool.and_eq_true]
  simp only [check_iff, FlagSet.isEmpty_iff, FlagSet.mem_union]
  grind

/-- A check says yes exactly if nothing is asked for, if the caller is privileged or owns the
provider, or if each flag is given by the grant of the caller for exactly the URI or by one for
everything beneath a URI above it. Two sets of modes are therefore checked together as they are
checked one by one, and neither the order in which grants are visited nor the one in which they were
put into a table, of whatever shards, has a part in the answer. -/
theorem check_unites_grants (authority : Authority) (caller : Identity) (uri : Uri) :
    (∀ modes, authority.check caller uri modes = true ↔
      modes.isEmpty = true ∨
      (caller.isPrivileged = true ∨ uri.isContent = true ∧ ∃ name ∈ uri.authority,
        ∃ provider ∈ authority.provider? name, provider.ownerUid = caller.uid) ∨
      uri.isContent = true ∧ ∀ bit ∈ modes,
        (∃ grant ∈ authority.table.find? ⟨caller.uid, uri, false⟩, bit ∈ grant.effective) ∨
          authority.settings.prefixGrants = true ∧ ∃ grant ∈ authority.table.grants,
            grant.grantee = caller.uid ∧ grant.beneath = true ∧ uri.isBeneath grant.uri = true ∧
              bit ∈ grant.effective) ∧
    (∀ first second, authority.check caller uri (first ∪ second) =
      (authority.check caller uri first && authority.check caller uri second)) ∧
    (∀ modes visited, visited.Perm (authority.table.shard uri) →
      authority.checkVisiting visited caller uri modes = authority.check caller uri modes) ∧
    ∀ modes place count, ∀ inserted : List Grant, inserted.Perm authority.table.grants →
      check { authority with table := inserted.foldl GrantTable.put (.empty place count) }
        caller uri modes = authority.check caller uri modes := by
  refine ⟨?_, ?_, ?_, ?_⟩
  · intro modes
    simp only [check_iff, holdsOwnerAccess_iff, isGranted_iff_exact_or_beneath]
  · intro first second
    exact check_union
  · intro modes visited order
    exact checkVisiting_eq_check order
  · intro modes place count inserted order
    exact check_refilled place count order

/-- A viewer may read a draft, and write everything beneath the note. Its access to both is found
whichever of the two grants is met first. -/
theorem draft_is_read_and_written :
    let authority := (Notes.start 512).run [.register Notes.provider,
      .grant (Notes.moment 1) Notes.owner Notes.draft (GrantFlags.ofModes Modes.read) Notes.viewer,
      .grant (Notes.moment 2) Notes.owner Notes.note (flagsFor Modes.write true) Notes.viewer]
    let visited := (authority.table.shard Notes.draft).reverse
    visited.Perm (authority.table.shard Notes.draft) ∧ visited.length = 2 ∧
      authority.check Notes.viewer Notes.draft (Modes.read ∪ Modes.write) = true ∧
      authority.checkVisiting visited Notes.viewer Notes.draft (Modes.read ∪ Modes.write) =
        true := by
  intro authority visited
  have order : visited.Perm (authority.table.shard Notes.draft) := List.reverse_perm _
  have unites := authority.check_unites_grants Notes.viewer Notes.draft
  have both : authority.check Notes.viewer Notes.draft (Modes.read ∪ Modes.write) = true := by
    rw [unites.2.1]
    decide +kernel
  refine ⟨order, by decide +kernel, both, ?_⟩
  rw [unites.2.2.1 _ visited order]
  exact both

end Authority

end IntentRouting
