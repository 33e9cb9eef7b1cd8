import IntentRouting.Proofs.Permission.Records
import IntentRouting.Proofs.Uri.Reading
import Mathlib.Data.List.Forall2
import Mathlib.Data.List.Nodup
import Mathlib.Data.List.Perm.Basic

/-!
# How records are listed

Records are listed by time and by URI. Records that agree in both, those of several grants on one URI
that were made durable at once, stand in the order in which the grants are met, and nothing fixes
that order (`GrantTable.exists_rearranged`). So tables with the same records list them in the same
way up to ties (`GrantTable.persisted_upToTies`), and in exactly the same way if they meet their
grants in the same order, however these are spread over shards (`GrantTable.persisted_eq_of_meetsIn`).
-/

namespace IntentRouting

namespace PersistedGrant

variable {left right : PersistedGrant}

/-- What records are listed by. -/
def place (kept : PersistedGrant) : Timestamp × String := (kept.persistedAt, kept.uri.text)

theorem place_eq_of_precedes (before : left.precedes right = true)
    (after : right.precedes left = true) : left.place = right.place := by
  have same : left.compare right = .eq := Std.OrientedCmp.isLE_antisymm before after
  rcases Ordering.then_eq_eq.1 same with ⟨moments, texts⟩
  have text : left.uri.text = right.uri.text := Std.LawfulEqCmp.eq_of_compare texts
  rw [place, place, Std.LawfulEqCmp.eq_of_compare moments, text]

/-- Lists of the same records that differ in the order of those with the same time and the same URI
alone, and not in the order of the records of one grant. -/
structure UpToTies (left right : List PersistedGrant) : Prop where
  perm : left.Perm right
  places : left.map place = right.map place
  keyed : ∀ key : GrantKey,
    left.filter (fun kept => key = kept.key) = right.filter fun kept => key = kept.key

namespace UpToTies

variable {left middle right : List PersistedGrant}

theorem refl (records : List PersistedGrant) : UpToTies records records :=
  ⟨.refl _, rfl, fun _ => rfl⟩

theorem of_eq (same : left = right) : UpToTies left right := same ▸ .refl left

theorem symm (ties : UpToTies left right) : UpToTies right left :=
  ⟨ties.perm.symm, ties.places.symm, fun key => (ties.keyed key).symm⟩

theorem trans (first : UpToTies left middle) (second : UpToTies middle right) :
    UpToTies left right where
  perm := first.perm.trans second.perm
  places := first.places.trans second.places
  keyed key := (first.keyed key).trans (second.keyed key)

/-- Sorted lists of the same records, one for each grant, agree up to ties. -/
theorem of_sorted (perm : left.Perm right) (nodup : (left.map key).Nodup)
    (leftSorted : left.Pairwise fun first second => first.precedes second = true)
    (rightSorted : right.Pairwise fun first second => first.precedes second = true) :
    UpToTies left right := by
  refine ⟨perm, ?_, fun key => ?_⟩
  · -- the order of two records is an order of their places
    let before (first second : Timestamp × String) : Prop :=
      ((first.1.compare second.1).then (Ord.compare first.2 second.2)).isLE = true
    have leftPlaces : (left.map place).Pairwise before := List.pairwise_map.2 leftSorted
    have rightPlaces : (right.map place).Pairwise before := List.pairwise_map.2 rightSorted
    refine (perm.map place).eq_of_pairwise ?_ leftPlaces rightPlaces
    intro first second firstMember secondMember earlier later
    rcases List.mem_map.1 firstMember with ⟨first, _, rfl⟩
    rcases List.mem_map.1 secondMember with ⟨second, _, rfl⟩
    exact place_eq_of_precedes earlier later
  · have apart : left.Pairwise fun first second => first.key ≠ second.key :=
      List.pairwise_map.1 nodup
    have otherApart := (perm.pairwise_iff Ne.symm).1 apart
    refine (perm.filter _).eq_of_pairwise ?_ (apart.filter _) (otherApart.filter _)
    -- no two records of one grant are in a list
    intro first second firstMember secondMember different _
    have firstKey := of_decide_eq_true (List.mem_filter.1 firstMember).2
    have secondKey := of_decide_eq_true (List.mem_filter.1 secondMember).2
    exact absurd (firstKey.symm.trans secondKey) different

end UpToTies

end PersistedGrant

theorem GrantStore.find?_of_upToTies {left right : GrantStore}
    (ties : PersistedGrant.UpToTies left.records right.records) (key : GrantKey) :
    left.find? key = right.find? key :=
  congrArg List.getLast? (ties.keyed key)

/-! ## Stable sorting -/

/-- A stable sort keeps the order of what stands in the same place. The induction is on the list, whose
first element is put in front of all that it does not come after. -/
theorem pairwise_mergeSort_stable {α : Type} {precedes : α → α → Bool} {relation : α → α → Prop}
    (trans : ∀ first second third, precedes first second = true → precedes second third = true →
      precedes first third = true)
    (total : ∀ first second, (precedes first second || precedes second first) = true)
    {values : List α} (related : values.Pairwise relation) :
    (values.mergeSort precedes).Pairwise fun first second =>
      precedes first second = true ∧ (precedes second first = true → relation first second) := by
  induction values with
  | nil => simp
  | cons value values ih =>
      rcases List.pairwise_cons.1 related with ⟨relates, related⟩
      have sorted := List.pairwise_mergeSort trans total (value :: values)
      rcases List.mergeSort_cons trans total value values with ⟨front, back, whole, rest, apart⟩
      rw [whole] at sorted ⊢
      have stable := rest ▸ ih related
      have member : ∀ other ∈ front ++ back, other ∈ values := by
        intro other among
        rwa [← rest, List.mem_mergeSort] at among
      rw [List.pairwise_append] at sorted stable ⊢
      refine ⟨stable.1, List.pairwise_cons.2 ⟨?_, stable.2.1⟩, ?_⟩
      · intro later among
        have inValues := member later (List.mem_append_right front among)
        exact ⟨(List.pairwise_cons.1 sorted.2.1).1 later among, fun _ => relates later inValues⟩
      · intro earlier among later amongLater
        rcases List.mem_cons.1 amongLater with rfl | amongLater
        · refine ⟨sorted.2.2 earlier among later (.head _), fun back => ?_⟩
          have notAfter := apart earlier among
          rw [back] at notAfter
          cases notAfter
        · exact stable.2.2 earlier among later amongLater

/-! ## The order in which grants are met -/

theorem Shard.keys_put {shard : Shard} {grant : Grant}
    (found : (shard.find? grant.key).isSome = true) :
    (shard.put grant).map Grant.key = shard.map Grant.key := by
  induction shard with
  | nil => exact absurd found Bool.false_ne_true
  | cons first rest ih =>
      rw [put]
      by_cases same : first.key = grant.key
      · simp [same]
      · rw [if_neg same, List.map_cons, List.map_cons, ih]
        simpa [find?, List.find?_cons, same] using found

namespace GrantTable

variable {table left right : GrantTable} {order : KeyOrder} {condition : Grant → Bool}
  {selected : PersistedGrant → Bool}

/-- Tables with the same records list them in the same way up to ties. -/
theorem persisted_upToTies (recorded : IsRecorded condition selected)
    (same : ∀ key, left.record? key = right.record? key) :
    PersistedGrant.UpToTies (left.persisted condition) (right.persisted condition) := by
  have members : ∀ kept, kept ∈ left.persisted condition ↔ kept ∈ right.persisted condition := by
    intro kept
    rw [mem_persisted_iff_record? recorded, mem_persisted_iff_record? recorded, same]
  have perm := (List.perm_ext_iff_of_nodup (.of_map _ persisted_keys_nodup)
    (.of_map _ persisted_keys_nodup)).2 members
  exact .of_sorted perm persisted_keys_nodup persisted_sorted persisted_sorted

theorem persisted_upToTies_iff :
    PersistedGrant.UpToTies (left.persisted fun _ => true) (right.persisted fun _ => true) ↔
      ∀ key, left.record? key = right.record? key := by
  constructor
  · intro ties key
    ext kept
    rw [record?_eq_some_iff, record?_eq_some_iff, ties.perm.mem_iff]
  · exact persisted_upToTies isRecorded_true

/-- Grants on the same URI are met in some order. -/
def MeetsIn (table : GrantTable) (order : KeyOrder) : Prop :=
  (table.grants.map Grant.key).Pairwise fun left right =>
    left.uri = right.uri → order.rank left ≤ order.rank right

theorem meetsIn_rearranged (table : GrantTable) (order : KeyOrder) :
    (table.rearranged order).MeetsIn order := by
  rw [MeetsIn, List.pairwise_map, grants, List.pairwise_flatten]
  constructor
  · intro shard member
    rcases List.mem_map.1 member with ⟨shard, _, rfl⟩
    refine (List.pairwise_mergeSort KeyOrder.meets_trans KeyOrder.meets_total shard).imp ?_
    exact fun meets _ => of_decide_eq_true meets
  · -- grants of different shards are on different URIs
    rw [List.pairwise_iff_getElem]
    intro first second firstBelow secondBelow less left leftMember right rightMember same
    have leftPlaced :=
      (table.rearranged order).placed first left (by simpa [firstBelow] using leftMember)
    have rightPlaced :=
      (table.rearranged order).placed second right (by simpa [secondBelow] using rightMember)
    have uri : left.uri = right.uri := same
    rw [uri, rightPlaced] at leftPlaced
    omega

/-- A grant that takes the place of another one is met where that one was. -/
theorem keys_put {grant : Grant} (found : (table.find? grant.key).isSome = true) :
    (table.put grant).grants.map Grant.key = table.grants.map Grant.key := by
  rw [grants, grants, List.map_flatten, List.map_flatten]
  congr 1
  apply List.ext_getElem?
  intro index
  simp only [put, modify, List.getElem?_map, List.getElem?_modify, Option.map_eq_map]
  split
  · rename_i placed
    have shard : table.shards[index]? = some (table.shard grant.uri) := by
      have below := placed ▸ table.index_lt grant.uri
      simp [GrantTable.shard, placed, below]
    simp only [shard, Option.map_some]
    exact congrArg some (Shard.keys_put found)
  · rw [Option.map_id']

theorem MeetsIn.put (meets : table.MeetsIn order) {grant : Grant}
    (found : (table.find? grant.key).isSome = true) : (table.put grant).MeetsIn order := by
  rwa [MeetsIn, keys_put found]

theorem MeetsIn.foldl_put (meets : table.MeetsIn order) {grants : List Grant}
    {change : Grant → Grant} (keyed : ∀ grant, (change grant).key = grant.key)
    (found : ∀ grant ∈ grants, (table.find? grant.key).isSome = true) :
    (grants.foldl (fun table grant => table.put (change grant)) table).MeetsIn order := by
  induction grants generalizing table with
  | nil => exact meets
  | cons grant grants ih =>
      rw [List.forall_mem_cons] at found
      refine ih (meets.put ((keyed grant).symm ▸ found.1)) fun other member => ?_
      rw [find?_put]
      split
      · rfl
      · exact found.2 other member

/-- Records of one user or of all are listed by time and URI, and in the order in which the grants are
met where these are the same. -/
theorem MeetsIn.persisted (meets : table.MeetsIn order) (condition : Grant → Bool) :
    (table.persisted condition).Pairwise fun left right => left.precedes right = true ∧
      (right.precedes left = true → left.uri = right.uri →
        order.rank left.key ≤ order.rank right.key) := by
  apply pairwise_mergeSort_stable PersistedGrant.precedes_trans PersistedGrant.precedes_total
  refine List.Pairwise.filterMap _ ?_ ((List.pairwise_map.1 meets).filter condition)
  intro left right met left' leftMade right' rightMade uri
  have leftKey := PersistedGrant.key_of_toPersisted? leftMade
  have rightKey := PersistedGrant.key_of_toPersisted? rightMade
  rw [leftKey, rightKey]
  apply met
  rw [← leftKey, ← rightKey]
  exact uri

/-- Tables with the same records that meet their grants in the same order list them in the same way. -/
theorem persisted_eq_of_meetsIn (recorded : IsRecorded condition selected)
    (same : ∀ key, left.record? key = right.record? key) (leftMeets : left.MeetsIn order)
    (rightMeets : right.MeetsIn order)
    (read : ∀ kept ∈ right.persisted fun _ => true, kept.uri.IsRead) :
    left.persisted condition = right.persisted condition := by
  have perm := (persisted_upToTies recorded same).perm
  have isRead : ∀ kept ∈ right.persisted condition, kept.uri.IsRead := by
    intro kept member
    have record := ((mem_persisted_iff_record? recorded).1 member).1
    exact read kept (record?_eq_some_iff.1 record).1
  refine perm.eq_of_pairwise ?_ (leftMeets.persisted condition) (rightMeets.persisted condition)
  -- records that stand in the same place have the same key, and no two of a list do
  intro first second firstMember secondMember before after
  rw [perm.mem_iff] at firstMember
  have places := PersistedGrant.place_eq_of_precedes before.1 after.1
  have uri : first.uri = second.uri := (isRead first firstMember).eq_of_text_eq
    (isRead second secondMember) (congrArg Prod.snd places)
  have keyed : first.key = second.key :=
    order.apart uri (Nat.le_antisymm (before.2 after.1 uri) (after.2 before.1 uri.symm))
  exact List.inj_on_of_nodup_map persisted_keys_nodup firstMember secondMember keyed

end GrantTable

/-! ## Every order -/

/-- A number for each key: its place in a list, or one behind the list. -/
def KeyOrder.number (keys : List GrantKey) (key : GrantKey) : Nat :=
  if key ∈ keys then keys.idxOf key else keys.length + byGrantee.rank key

theorem KeyOrder.eq_of_number_eq {keys : List GrantKey} {left right : GrantKey}
    (uri : left.uri = right.uri) (same : number keys left = number keys right) : left = right := by
  have below {key : GrantKey} : key ∈ keys → keys.idxOf key < keys.length :=
    List.idxOf_lt_length_iff.2
  rw [number, number] at same
  split at same <;> split at same
  · rename_i member _
    exact (List.idxOf_inj member).1 same
  · rename_i member _
    have := below member
    omega
  · rename_i _ member
    have := below member
    omega
  · exact byGrantee.apart uri (Nat.add_left_cancel same)

/-- The order of a list of keys. What is not in the list comes after it. -/
def KeyOrder.ofList (keys : List GrantKey) : KeyOrder := ⟨number keys, eq_of_number_eq⟩

theorem KeyOrder.pairwise_ofList {keys : List GrantKey} (nodup : keys.Nodup) :
    keys.Pairwise fun left right => (ofList keys).rank left < (ofList keys).rank right := by
  rw [List.pairwise_iff_getElem]
  intro first second firstBelow secondBelow less
  simpa [ofList, number, nodup.idxOf_getElem] using less

/-- A shard whose grants are met in the order of their numbers is what comes of rearranging it. -/
theorem Shard.rearranged_eq {shard other : Shard} {order : KeyOrder} (perm : shard.Perm other)
    (ascending : shard.Pairwise fun left right => order.rank left.key < order.rank right.key) :
    other.rearranged order = shard := by
  have ranks : (shard.map fun grant => order.rank grant.key).Nodup :=
    List.pairwise_map.2 (ascending.imp Nat.ne_of_lt)
  refine (rearranged_perm.trans perm.symm).eq_of_pairwise ?_
    (List.pairwise_mergeSort KeyOrder.meets_trans KeyOrder.meets_total other)
    (ascending.imp fun less => decide_eq_true (Nat.le_of_lt less))
  intro first second firstMember secondMember before after
  rw [rearranged_perm.mem_iff, ← perm.mem_iff] at firstMember
  exact List.inj_on_of_nodup_map ranks firstMember secondMember
    (Nat.le_antisymm (of_decide_eq_true before) (of_decide_eq_true after))

theorem Shard.map_rearranged {shards others : List Shard} {order : KeyOrder}
    (met : List.Forall₂ List.Perm shards others)
    (ascending : shards.flatten.Pairwise fun left right =>
      order.rank left.key < order.rank right.key) :
    others.map (·.rearranged order) = shards := by
  induction met with
  | nil => rfl
  | cons perm _ ih =>
      rw [List.flatten_cons, List.pairwise_append] at ascending
      rw [List.map_cons, rearranged_eq perm ascending.1, ih ascending.2.1]

/-- In whichever order a table meets the grants of each shard, rearranging leads to it. -/
theorem GrantTable.exists_rearranged (table : GrantTable) {shards : List Shard}
    (met : List.Forall₂ List.Perm shards table.shards) :
    ∃ order, (table.rearranged order).shards = shards := by
  have perm : shards.flatten.Perm table.grants := List.Perm.flatten_congr met
  have nodup : (shards.flatten.map Grant.key).Nodup :=
    (perm.map Grant.key).nodup_iff.2 (List.pairwise_map.2 grants_distinct)
  have ascending := List.pairwise_map.1 (KeyOrder.pairwise_ofList nodup)
  exact ⟨_, Shard.map_rearranged met ascending⟩

end IntentRouting
