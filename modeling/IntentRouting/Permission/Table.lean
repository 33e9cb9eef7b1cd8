import IntentRouting.Permission.Grant

/-!
# The table of grants

The table is split into shards. Which shard a grant is in depends on the scheme and the authority of
its URI alone, so every grant that can be about a URI is in the shard of that URI, and requests
about one URI look at one shard. How shards are chosen is a part of the table, and nothing else
depends on it.

That every grant is in the shard of its URI and that no two grants have the same key are part of the
type, so a table is determined, but for the order of its grants, by the grant that each key has. The
equations for `GrantTable.find?` say what every operation does.

A shard is a hash map, and the order of its list is the one in which the map meets its grants.
Nothing fixes this order, so a table can be rearranged at any moment (`GrantTable.rearranged`). It is
only seen where grants on one URI were made durable at the same time.
-/

namespace IntentRouting

/-- A part of the table. -/
abbrev Shard := List Grant

namespace Shard

/-- No two grants have the same key. -/
def Distinct (shard : Shard) : Prop := shard.Pairwise fun left right => left.key ≠ right.key

def find? (shard : Shard) (key : GrantKey) : Option Grant :=
  List.find? (fun grant => grant.key = key) shard

/-- Puts a grant in the place of the one with its key, or at the end. -/
def put (grant : Grant) : Shard → Shard
  | [] => [grant]
  | first :: rest => if first.key = grant.key then grant :: rest else first :: put grant rest

def erase (shard : Shard) (key : GrantKey) : Shard := shard.filter fun grant => grant.key != key

variable {shard : Shard} {grant other : Grant} {key : GrantKey}

theorem find?_eq_some_iff (distinct : shard.Distinct) :
    shard.find? key = some grant ↔ grant ∈ shard ∧ grant.key = key := by
  induction shard with
  | nil => simp [find?]
  | cons first rest ih =>
      rcases List.pairwise_cons.1 distinct with ⟨apart, distinct⟩
      specialize ih distinct
      simp only [find?, List.find?_cons] at ih ⊢
      by_cases same : first.key = key
      · simp only [same, decide_true, Option.some.injEq, List.mem_cons]
        constructor
        · rintro rfl
          exact ⟨.inl rfl, same⟩
        · rintro ⟨rfl | member, keyed⟩
          · rfl
          · exact absurd (same.trans keyed.symm) (apart grant member)
      · simp only [same, decide_false, List.mem_cons, ih]
        constructor
        · exact fun ⟨member, keyed⟩ => ⟨.inr member, keyed⟩
        · rintro ⟨rfl | member, keyed⟩
          · exact absurd keyed same
          · exact ⟨member, keyed⟩

theorem find?_put :
    find? (put grant shard) key = if key = grant.key then some grant else shard.find? key := by
  induction shard with
  | nil => simp [find?, put, eq_comm]
  | cons first rest ih =>
      simp only [find?, put] at ih ⊢
      by_cases same : first.key = grant.key
      · by_cases keyed : grant.key = key
        · simp [same, keyed]
        · simp [same, keyed, Ne.symm keyed]
      · simp only [same, if_false, List.find?_cons, ih]
        by_cases keyed : first.key = key
        · have different : key ≠ grant.key := keyed ▸ same
          simp [keyed, different]
        · simp [keyed]

theorem mem_put (member : other ∈ put grant shard) : other = grant ∨ other ∈ shard := by
  induction shard with
  | nil => simpa [put] using member
  | cons first rest ih =>
      rw [put] at member
      split at member
      · rcases List.mem_cons.1 member with rfl | member
        · exact .inl rfl
        · exact .inr (.tail _ member)
      · rcases List.mem_cons.1 member with rfl | member
        · exact .inr (.head _)
        · exact (ih member).imp_right (.tail _)

theorem Distinct.put (distinct : shard.Distinct) : (put grant shard).Distinct := by
  induction shard with
  | nil => simp [Shard.put, Distinct]
  | cons first rest ih =>
      rcases List.pairwise_cons.1 distinct with ⟨apart, distinct⟩
      rw [Shard.put]
      split
      · rename_i same
        exact .cons (fun other member => same ▸ apart other member) distinct
      · rename_i different
        refine .cons (fun other member => ?_) (ih distinct)
        rcases mem_put member with rfl | member
        · exact different
        · exact apart other member

theorem find?_erase {other : GrantKey} :
    (shard.erase other).find? key = if key = other then none else shard.find? key := by
  rw [find?, erase, List.find?_filter]
  split
  · rename_i same
    simp [same]
  · rename_i different
    congr 1
    funext grant
    by_cases keyed : grant.key = key <;> simp [keyed, different]

theorem mem_of_mem_erase (member : grant ∈ shard.erase key) : grant ∈ shard :=
  (List.mem_filter.1 member).1

theorem Distinct.erase (distinct : shard.Distinct) : (shard.erase key).Distinct := distinct.filter _

/-- A change of each grant that keeps the keys changes the grant of a key alone. -/
theorem find?_filterMap {change : Grant → Option Grant}
    (keeps : ∀ grant changed, change grant = some changed → changed.key = grant.key)
    (distinct : shard.Distinct) :
    find? (shard.filterMap change) key = (shard.find? key).bind change := by
  induction shard with
  | nil => rfl
  | cons first rest ih =>
      rcases List.pairwise_cons.1 distinct with ⟨apart, distinct⟩
      specialize ih distinct
      simp only [find?, List.filterMap_cons, List.find?_cons] at ih ⊢
      by_cases keyed : first.key = key
      · have absent : List.find? (fun grant => grant.key = key) rest = none := by
          rw [List.find?_eq_none]
          intro other member
          simpa [← keyed, eq_comm] using apart other member
        cases changed : change first with
        | none => simp [keyed, changed, ih, absent]
        | some grant => simp [keyed, changed, keeps first grant changed]
      · cases changed : change first with
        | none => simp [keyed, ih]
        | some grant => simp [keyed, ih, keeps first grant changed]

theorem Distinct.filterMap {change : Grant → Option Grant}
    (keeps : ∀ grant changed, change grant = some changed → changed.key = grant.key)
    (distinct : shard.Distinct) : Distinct (shard.filterMap change) := by
  refine List.Pairwise.filterMap change ?_ distinct
  intro left right apart left' leftChanged right' rightChanged
  rwa [keeps left left' leftChanged, keeps right right' rightChanged]

/-- Shards that have the same grants differ only in their order. -/
theorem Distinct.perm {other : Shard} (distinct : shard.Distinct) (otherDistinct : other.Distinct)
    (same : ∀ grant, grant ∈ shard ↔ grant ∈ other) : shard.Perm other := by
  have nodup : ∀ {shard : Shard}, shard.Distinct → shard.Nodup :=
    fun distinct => distinct.imp fun apart same => apart (congrArg Grant.key same)
  exact (List.perm_ext_iff_of_nodup (nodup distinct) (nodup otherDistinct)).2 same

end Shard

/-- An order in which grants are met: the one with the smaller number first. Grants on the same URI
have different numbers. -/
structure KeyOrder where
  rank : GrantKey → Nat
  apart : ∀ {left right : GrantKey}, left.uri = right.uri → rank left = rank right → left = right

namespace KeyOrder

variable {order : KeyOrder}

/-- Whether a grant is met before another one, or in the same place. -/
def meets (order : KeyOrder) (left right : Grant) : Bool :=
  order.rank left.key ≤ order.rank right.key

theorem meets_trans (left middle right : Grant) (first : order.meets left middle = true)
    (second : order.meets middle right = true) : order.meets left right = true :=
  decide_eq_true (Nat.le_trans (of_decide_eq_true first) (of_decide_eq_true second))

theorem meets_total (left right : Grant) :
    (order.meets left right || order.meets right left) = true := by
  simp only [meets, Bool.or_eq_true, decide_eq_true_eq]
  omega

theorem eq_of_numbers_eq {left right : GrantKey} (uri : left.uri = right.uri)
    (same : 2 * left.grantee + left.beneath.toNat = 2 * right.grantee + right.beneath.toNat) :
    left = right := by
  rcases left with ⟨grantee, _, beneath⟩
  rcases right with ⟨other, _, reach⟩
  cases uri
  cases beneath <;> cases reach <;> simp at same ⊢ <;> omega

/-- The order by the user, and by the reach where the user is the same. -/
def byGrantee : KeyOrder where
  rank key := 2 * key.grantee + key.beneath.toNat
  apart := eq_of_numbers_eq

end KeyOrder

namespace Shard

/-- A shard whose grants are met in some order. -/
def rearranged (shard : Shard) (order : KeyOrder) : Shard := shard.mergeSort order.meets

theorem rearranged_perm {shard : Shard} {order : KeyOrder} : (shard.rearranged order).Perm shard :=
  List.mergeSort_perm shard order.meets

@[simp]
theorem rearranged_nil {order : KeyOrder} : rearranged [] order = [] := List.mergeSort_nil

theorem Distinct.rearranged {shard : Shard} {order : KeyOrder} (distinct : shard.Distinct) :
    (shard.rearranged order).Distinct :=
  (rearranged_perm.pairwise_iff Ne.symm).2 distinct

end Shard

/-- A number for each scheme and authority, by which shards are chosen. -/
abbrev Placement := Option String → Option String → Nat

/-- The table of grants. -/
structure GrantTable where
  place : Placement
  shards : List Shard
  nonempty : 0 < shards.length
  /-- Every grant is in the shard of its URI. -/
  placed : ∀ index : Nat, ∀ grant ∈ shards[index]?.getD [],
    place grant.uri.scheme grant.uri.authority % shards.length = index
  distinct : ∀ index : Nat, Shard.Distinct (shards[index]?.getD [])

namespace GrantTable

theorem getD_replicate {count index : Nat} :
    ((List.replicate count ([] : Shard))[index]?).getD [] = [] := by
  rw [List.getElem?_replicate]
  split <;> rfl

/-- A table of a number of empty shards, but of one at least. -/
def empty (place : Placement) (count : Nat) : GrantTable where
  place
  shards := List.replicate (max count 1) []
  nonempty := by
    rw [List.length_replicate]
    omega
  placed index grant member := by
    rw [getD_replicate] at member
    cases member
  distinct index := by
    rw [getD_replicate]
    exact .nil

def index (table : GrantTable) (uri : Uri) : Nat :=
  table.place uri.scheme uri.authority % table.shards.length

theorem index_lt (table : GrantTable) (uri : Uri) : table.index uri < table.shards.length :=
  Nat.mod_lt _ table.nonempty

def shard (table : GrantTable) (uri : Uri) : Shard := table.shards[table.index uri]?.getD []

theorem getD_map {shards : List Shard} {change : Shard → Shard} {index : Nat}
    (nothing : change [] = []) :
    (shards.map change)[index]?.getD [] = change (shards[index]?.getD []) := by
  cases found : shards[index]? <;> simp [found, nothing]

theorem getD_modify {shards : List Shard} {change : Shard → Shard} {place index : Nat}
    (below : place < shards.length) : (shards.modify place change)[index]?.getD [] =
      if place = index then change (shards[index]?.getD []) else shards[index]?.getD [] := by
  rw [List.getElem?_modify]
  split
  · rename_i same
    simp [List.getElem?_eq_getElem (same ▸ below)]
  · simp

/-- A table with the shard of a URI changed, by a change that keeps the grants of the shard apart
and puts no grant into it that belongs elsewhere. -/
def modify (table : GrantTable) (uri : Uri) (change : Shard → Shard)
    (distinct : ∀ shard : Shard, shard.Distinct → (change shard).Distinct)
    (placed : ∀ shard, ∀ grant ∈ change shard, grant.uri = uri ∨ ∃ other ∈ shard,
    grant.uri = other.uri) :
    GrantTable where
  place := table.place
  shards := table.shards.modify (table.index uri) change
  nonempty := by simpa using table.nonempty
  placed index grant member := by
    rw [getD_modify (table.index_lt uri)] at member
    rw [List.length_modify]
    split at member
    · rename_i same
      rcases placed _ grant member with equal | ⟨other, member, equal⟩
      · rw [equal, ← same, GrantTable.index]
      · rw [equal, table.placed index other member]
    · exact table.placed index grant member
  distinct index := by
    rw [getD_modify (table.index_lt uri)]
    split
    · exact distinct _ (table.distinct index)
    · exact table.distinct index

/-- A table with a grant in the place of the one with its key. -/
def put (table : GrantTable) (grant : Grant) : GrantTable :=
  table.modify grant.uri (Shard.put grant) (fun _ distinct => distinct.put) fun _ _ member =>
    (Shard.mem_put member).imp (congrArg Grant.uri) fun member => ⟨_, member, rfl⟩

def erase (table : GrantTable) (key : GrantKey) : GrantTable :=
  table.modify key.uri (·.erase key) (fun _ distinct => distinct.erase) fun _ _ member =>
    .inr ⟨_, Shard.mem_of_mem_erase member, rfl⟩

/-- A table with a grant put in its place, or removed if it is empty. -/
def settle (table : GrantTable) (grant : Grant) : GrantTable :=
  if grant.isEmpty then table.erase grant.key else table.put grant

/-- A table with the grants in the shard of a URI changed or removed, by a change that keeps their
keys. -/
def revise (table : GrantTable) (uri : Uri) (change : Grant → Option Grant)
    (keeps : ∀ grant changed, change grant = some changed → changed.key = grant.key) : GrantTable :=
  table.modify uri (·.filterMap change) (fun _ distinct => distinct.filterMap keeps)
    fun _ grant member => by
      rcases List.mem_filterMap.1 member with ⟨other, member, changed⟩
      exact .inr ⟨other, member, congrArg GrantKey.uri (keeps other grant changed)⟩

/-- A table with all grants changed or removed, by a change that keeps their keys. -/
def reviseAll (table : GrantTable) (change : Grant → Option Grant)
    (keeps : ∀ grant changed, change grant = some changed → changed.key = grant.key) :
    GrantTable where
  place := table.place
  shards := table.shards.map (·.filterMap change)
  nonempty := by simpa using table.nonempty
  placed index grant member := by
    rw [getD_map rfl] at member
    rcases List.mem_filterMap.1 member with ⟨other, member, changed⟩
    have same : grant.uri = other.uri := congrArg GrantKey.uri (keeps other grant changed)
    rw [List.length_map, same]
    exact table.placed index other member
  distinct index := by
    rw [getD_map rfl]
    exact (table.distinct index).filterMap keeps

/-- A table whose grants are met in some order. -/
def rearranged (table : GrantTable) (order : KeyOrder) : GrantTable where
  place := table.place
  shards := table.shards.map (·.rearranged order)
  nonempty := by simpa using table.nonempty
  placed index grant member := by
    rw [getD_map Shard.rearranged_nil] at member
    rw [List.length_map]
    exact table.placed index grant (Shard.rearranged_perm.mem_iff.1 member)
  distinct index := by
    rw [getD_map Shard.rearranged_nil]
    exact (table.distinct index).rearranged

def grants (table : GrantTable) : List Grant := table.shards.flatten

def find? (table : GrantTable) (key : GrantKey) : Option Grant := (table.shard key.uri).find? key

/-- What is kept of the grants that are persisted and that satisfy a condition, the oldest first.
Records with the same time and the same URI are listed in the order in which their grants are met. -/
def persisted (table : GrantTable) (condition : Grant → Bool) : List PersistedGrant :=
  ((table.grants.filter condition).filterMap Grant.toPersisted?).mergeSort PersistedGrant.precedes

/-- A number that is spread over schemes and authorities. -/
def spread (scheme authority : Option String) : Nat :=
  ((scheme.getD "").toList ++ ':' :: (authority.getD "").toList).foldl
    (fun number c => (number * 31 + c.toNat) % 4294967296) 7

/-! ## What the operations do to the grant of a key -/

variable {table : GrantTable} {grant : Grant} {key other : GrantKey} {uri : Uri}

/-- What lies beneath a URI is in the same shard. -/
theorem index_eq_of_isBeneath {lower : Uri} (beneath : lower.isBeneath uri = true) :
    table.index lower = table.index uri := by
  rcases Uri.isBeneath_iff.1 beneath with ⟨scheme, authority, _⟩
  rw [index, index, scheme, authority]

theorem shard_distinct : (table.shard uri).Distinct := table.distinct _

theorem mem_shard_iff : grant ∈ table.shard uri ↔
    grant ∈ table.grants ∧ table.index grant.uri = table.index uri := by
  simp only [grants, List.mem_flatten, shard]
  constructor
  · intro member
    refine ⟨⟨_, ?_, member⟩, table.placed _ grant member⟩
    simp [table.index_lt uri]
  · rintro ⟨⟨shard, inTable, member⟩, same⟩
    rcases List.getElem_of_mem inTable with ⟨index, below, rfl⟩
    have member : grant ∈ table.shards[index]?.getD [] := by simpa [below] using member
    rw [← same, GrantTable.index, table.placed index grant member]
    exact member

/-- The grant of a key is the one grant of the table that has the key. -/
theorem find?_eq_some_iff :
    table.find? key = some grant ↔ grant ∈ table.grants ∧ grant.key = key := by
  rw [find?, Shard.find?_eq_some_iff shard_distinct, mem_shard_iff]
  constructor
  · exact fun ⟨⟨member, _⟩, keyed⟩ => ⟨member, keyed⟩
  · rintro ⟨member, rfl⟩
    exact ⟨⟨member, rfl⟩, rfl⟩

theorem mem_grants_iff : grant ∈ table.grants ↔ table.find? grant.key = some grant := by
  simp [find?_eq_some_iff]

theorem key_of_find? (found : table.find? key = some grant) : grant.key = key :=
  (find?_eq_some_iff.1 found).2

theorem grants_distinct : Shard.Distinct table.grants := by
  rw [Shard.Distinct, grants, List.pairwise_flatten]
  constructor
  · intro shard member
    rcases List.getElem_of_mem member with ⟨index, below, rfl⟩
    simpa [below, Shard.Distinct] using table.distinct index
  · rw [List.pairwise_iff_getElem]
    intro first second firstBelow secondBelow less left leftMember right rightMember same
    have leftPlaced := table.placed first left (by simpa [firstBelow] using leftMember)
    have rightPlaced := table.placed second right (by simpa [secondBelow] using rightMember)
    have uri : left.uri = right.uri := congrArg GrantKey.uri same
    rw [uri, rightPlaced] at leftPlaced
    omega

theorem mem_persisted_iff {condition : Grant → Bool} {kept : PersistedGrant} :
    kept ∈ table.persisted condition ↔
      ∃ grant ∈ table.grants, condition grant = true ∧ grant.toPersisted? = some kept := by
  simp [persisted, List.mem_mergeSort, List.mem_filterMap, and_assoc]

theorem persisted_sorted {condition : Grant → Bool} :
    (table.persisted condition).Pairwise fun left right => left.precedes right = true :=
  List.pairwise_mergeSort PersistedGrant.precedes_trans PersistedGrant.precedes_total _

/-- Records that are met in their order are listed as they are met. -/
theorem persisted_of_pairwise {condition : Grant → Bool}
    (ordered : ((table.grants.filter condition).filterMap Grant.toPersisted?).Pairwise
      fun left right => left.precedes right = true) :
    table.persisted condition = (table.grants.filter condition).filterMap Grant.toPersisted? :=
  List.mergeSort_of_pairwise ordered

theorem persisted_keys_nodup {condition : Grant → Bool} :
    ((table.persisted condition).map PersistedGrant.key).Nodup := by
  have distinct : ((table.grants.filter condition).filterMap Grant.toPersisted?).Pairwise
      fun left right => left.key ≠ right.key := by
    refine List.Pairwise.filterMap _ ?_ (grants_distinct.filter condition)
    intro left right apart left' leftMade right' rightMade
    rwa [PersistedGrant.key_of_toPersisted? leftMade, PersistedGrant.key_of_toPersisted? rightMade]
  have perm := (List.mergeSort_perm ((table.grants.filter condition).filterMap Grant.toPersisted?)
    PersistedGrant.precedes).map PersistedGrant.key
  exact perm.nodup_iff.2 (List.pairwise_map.2 distinct)

@[simp]
theorem find?_empty {place : Placement} {count : Nat} : (empty place count).find? key = none := by
  simp only [find?, shard, empty, getD_replicate]
  rfl

theorem shard_modify {change : Shard → Shard} {distinct placed} {other : Uri} :
    (table.modify uri change distinct placed).shard other =
      if table.index uri = table.index other then change (table.shard other)
        else table.shard other := by
  simp only [shard, index, modify, List.length_modify]
  exact getD_modify (table.index_lt uri)

@[simp]
theorem find?_put : (table.put grant).find? key =
    if key = grant.key then some grant else table.find? key := by
  rw [find?, put, shard_modify]
  split
  · exact Shard.find?_put
  · rename_i elsewhere
    rw [if_neg, find?]
    rintro rfl
    exact elsewhere rfl

@[simp]
theorem find?_erase : (table.erase other).find? key =
    if key = other then none else table.find? key := by
  rw [find?, erase, shard_modify]
  split
  · exact Shard.find?_erase
  · rename_i elsewhere
    rw [if_neg, find?]
    rintro rfl
    exact elsewhere rfl

@[simp]
theorem find?_settle : (table.settle grant).find? key =
    if key = grant.key then grant.settled else table.find? key := by
  rw [settle, Grant.settled]
  split <;> simp

theorem find?_revise {change : Grant → Option Grant} {keeps} :
    (table.revise uri change keeps).find? key =
      if table.index uri = table.index key.uri then (table.find? key).bind change
      else table.find? key := by
  rw [find?, revise, shard_modify]
  split
  · exact Shard.find?_filterMap keeps shard_distinct
  · rfl

@[simp]
theorem find?_reviseAll (change : Grant → Option Grant) (keeps) :
    (table.reviseAll change keeps).find? key = (table.find? key).bind change := by
  rw [find?, shard, index, reviseAll, List.length_map, getD_map rfl]
  exact Shard.find?_filterMap keeps shard_distinct

/-- The order in which grants are met is not seen by who looks for a key. -/
@[simp]
theorem find?_rearranged (order : KeyOrder) :
    (table.rearranged order).find? key = table.find? key := by
  have members : ∀ grant, grant ∈ (table.rearranged order).shard key.uri ↔
      grant ∈ table.shard key.uri := by
    intro grant
    rw [shard, index, rearranged, List.length_map, getD_map Shard.rearranged_nil]
    exact Shard.rearranged_perm.mem_iff
  ext grant
  rw [find?, find?, Shard.find?_eq_some_iff shard_distinct, Shard.find?_eq_some_iff shard_distinct,
    members]

/-- A sequence of changes, each of the grant of one key, looks at one key like the changes of its
grant. -/
theorem find?_foldl {α : Type} (step : GrantTable → α → GrantTable) (keyOf : α → GrantKey)
    (effect : α → Option Grant → Option Grant)
    (find?_step : ∀ table change key, (step table change).find? key =
      if key = keyOf change then effect change (table.find? key) else table.find? key)
    (changes : List α) (table : GrantTable) (key : GrantKey) :
    (changes.foldl step table).find? key =
      (changes.filter fun change => key = keyOf change).foldl
        (fun found change => effect change found) (table.find? key) := by
  induction changes generalizing table with
  | nil => rfl
  | cons change changes ih =>
      rw [List.foldl_cons, ih, find?_step, List.filter_cons]
      by_cases same : key = keyOf change <;> simp [same]

end GrantTable
end IntentRouting
