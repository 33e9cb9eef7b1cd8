import IntentRouting.Proofs.Permission.Locality
import IntentRouting.Proofs.Permission.Mirror

/-!
# Shards

How many shards an authority has, and how they are chosen, is not seen by anybody who asks it: its
answers, what it announces and what it saves depend on the grant of each key alone
(`Authority.Alike.transcript`). So any authority is like one with a single shard.

What is not determined in either of them is the order in which grants are met. It is a part of each
step of a run (`Step`), and may be another one in the other run. It decides in which order records
with the same time and the same URI are listed, and which of them are evicted when access is taken,
so only where access is taken the two runs have to meet grants alike (`Step.SameChoice`).
-/

namespace IntentRouting

/-- A request, or a question that changes nothing. -/
inductive Call where
  | ask (request : Request)
  | check (caller : Identity) (uri : Uri) (modes : Modes)
  | grantsOf (uid : Nat)
  | persistedBy (uid : Nat)
  | persistedFrom (uid : Nat)

/-- What is answered to a call. -/
inductive Reply where
  | done (answer : Except Error Unit)
  | provider (found : Option ProviderInfo)
  | grant (answer : Except Error Grant)
  | grants (answer : Except Error (List Grant))
  | count (answer : Except Error Nat)
  | access (held : Bool)
  | listed (grants : List Grant)
  | kept (records : List PersistedGrant)

/-- A call, and the order in which grants are met when it is made. -/
structure Step where
  order : KeyOrder
  call : Call

/-- What is seen of a step: what is answered and announced, and what the store holds then. -/
structure Line where
  reply : Reply
  events : List Event
  store : GrantStore

/-- Whether access is made durable by a request, so that other grants may be evicted. -/
def Request.takes : Request → Bool
  | .take .. => true
  | _ => false

def Call.takes : Call → Bool
  | .ask request => request.takes
  | _ => false

/-- Steps with the same call. If it takes access, grants are met in the same order, so the same ones
out of those that are tied are evicted. -/
structure Step.SameChoice (left right : Step) : Prop where
  call : left.call = right.call
  order : left.call.takes = true → left.order = right.order

/-- Replies that are the same, but for the order of records with the same time and the same URI. -/
inductive Reply.UpToTies : Reply → Reply → Prop
  | kept {left right : List PersistedGrant} (ties : PersistedGrant.UpToTies left right) :
      UpToTies (.kept left) (.kept right)
  | refl (reply : Reply) : UpToTies reply reply

theorem Reply.UpToTies.of_eq {left right : Reply} (same : left = right) : left.UpToTies right :=
  same ▸ .refl left

/-- What is seen of two steps is the same, but for the order of records with the same time and the
same URI. -/
structure Line.UpToTies (left right : Line) : Prop where
  reply : left.reply.UpToTies right.reply
  events : left.events = right.events
  records : PersistedGrant.UpToTies left.store.records right.store.records
  failing : left.store.failing = right.store.failing

/-- The URIs that a request can grant access to. -/
def Request.uris : Request → List Uri
  | .grant _ _ uri _ _ => [uri]
  | .dispatch _ _ intent _ => intent.reachedContent
  | _ => []

def Call.uris : Call → List Uri
  | .ask request => request.uris
  | _ => []

namespace Grant

variable {left right : Grant} {grants : List Grant}

/-- The order in which the grants of a user are listed. -/
def order : Grant → Grant → Ordering :=
  compareLex (compareOn fun grant => grant.uri.text) (compareOn fun grant => grant.beneath.toNat)

instance : Std.TransCmp order := by
  rw [order]
  infer_instance

theorem precedes_eq (left right : Grant) : left.precedes right = (order left right).isLE := rfl

theorem pairwise_mergeSort :
    (grants.mergeSort precedes).Pairwise fun left right => left.precedes right = true := by
  apply List.pairwise_mergeSort
  · intro left middle right first second
    rw [precedes_eq] at first second ⊢
    exact Std.TransCmp.isLE_trans first second
  · intro left right
    have swap : order left right = (order right left).swap := Std.OrientedCmp.eq_swap
    rw [precedes_eq, precedes_eq, swap]
    cases order right left <;> rfl

theorem key_eq_of_precedes (owner : left.grantee = right.grantee) (leftRead : left.uri.IsRead)
    (rightRead : right.uri.IsRead) (before : left.precedes right = true)
    (after : right.precedes left = true) : left.key = right.key := by
  have same : order left right = .eq := Std.OrientedCmp.isLE_antisymm before after
  simp only [order, compareLex, compareOn, Ordering.then_eq_eq] at same
  rcases same with ⟨texts, reaches⟩
  have uri : left.uri = right.uri :=
    leftRead.eq_of_text_eq rightRead (Std.LawfulEqCmp.eq_of_compare texts)
  have reach : left.beneath.toNat = right.beneath.toNat := Std.LawfulEqCmp.eq_of_compare reaches
  have beneath : left.beneath = right.beneath := by
    revert reach
    cases left.beneath <;> cases right.beneath <;> simp
  rw [key, key, owner, uri, beneath]

end Grant

theorem Grant.stable_isRead : Grant.Stable fun grant => grant.uri.IsRead where
  without _ _ read _ := read
  release _ _ read _ := read
  evict _ read _ := read
  endSession _ read _ := read
  reload grant kept read made := by
    rcases Grant.toPersisted?_eq_some_iff.1 made with ⟨_, rfl⟩
    exact read
  promote _ _ _ read _ := read

namespace Authority

variable {authority left right : Authority} {origins : Set Uri.Origin}

/-- What is answered to a request. -/
def replyTo (authority : Authority) : Request → Reply
  | .unregister name => .provider (authority.provider? name)
  | .grant now grantor uri flags grantee =>
      .grant (authority.grant now grantor uri flags grantee).answer
  | .dispatch now caller intent receiver =>
      .grants (authority.dispatch now caller intent receiver).answer
  | .revoke uri modes grantee => .count (authority.revoke uri modes grantee).answer
  | .take now grantee uri modes => .done (authority.take now grantee uri modes).answer
  | .release grantee uri modes => .done (authority.release grantee uri modes).answer
  | .exit pid => .count (.ok (authority.exit pid).1)
  | .register _ | .storeFails _ | .reload | .rearrange _ => .done (.ok ())

def reply (authority : Authority) : Call → Reply
  | .ask request => authority.replyTo request
  | .check caller uri modes => .access (authority.check caller uri modes)
  | .grantsOf uid => .listed (authority.grantsOf uid)
  | .persistedBy uid => .kept (authority.persistedBy uid)
  | .persistedFrom uid => .kept (authority.persistedFrom uid)

/-- The authority after a call, and what is announced. -/
def follow (authority : Authority) : Call → Authority × List Event
  | .ask request => ((authority.perform request).authority, (authority.perform request).events)
  | _ => (authority, [])

/-- The authority after a step. -/
def advance (authority : Authority) (step : Step) : Authority :=
  ((authority.rearranged step.order).follow step.call).1

def line (authority : Authority) (step : Step) : Line :=
  let met := authority.rearranged step.order
  ⟨met.reply step.call, (met.follow step.call).2, (met.follow step.call).1.store⟩

def advanceAll (authority : Authority) (steps : List Step) : Authority := steps.foldl advance authority

/-- What is seen of a run, step by step. -/
def transcript (authority : Authority) : List Step → List Line
  | [] => []
  | step :: steps => authority.line step :: (authority.advance step).transcript steps

/-! ## URIs that were read -/

/-- All grants and records are about URIs that were read. -/
abbrev IsRead (authority : Authority) : Prop := authority.Everywhere fun grant => grant.uri.IsRead

theorem mem_of_granted_grantEach {now : Timestamp} {grantor grantee : Identity}
    {flags : GrantFlags} {uris : List Uri} {uri : Uri} {uid : Nat} {modes : Modes}
    (announced : .granted uri uid modes ∈
      (authority.grantEach now grantor flags grantee uris).events) : uri ∈ uris := by
  induction uris generalizing authority with
  | nil => cases announced
  | cons first uris ih =>
      rcases authority.grant_cases now grantor first flags grantee with ⟨_, _, after⟩ | ⟨_, after⟩
      · rw [grantEach_cons_of_fault after] at announced
        cases announced
      · rw [(grantEach_cons_of_granted uris after).2] at announced
        rcases List.mem_cons.1 announced with same | later
        · cases same
          exact List.mem_cons_self ..
        · exact List.mem_cons_of_mem first (ih later)

/-- Access is delegated only to URIs of the request. -/
theorem uri_mem_of_mem_delegations {request : Request} {delegation : Delegation}
    (delegated : delegation ∈ authority.delegations request) : delegation.uri ∈ request.uris := by
  cases request with
  | grant now grantor uri flags grantee =>
      rw [delegations, perform, Outcome.withoutAnswer] at delegated
      rcases authority.grant_cases now grantor uri flags grantee with ⟨_, _, after⟩ | ⟨_, after⟩
      · rw [after] at delegated
        cases delegated
      · rw [after] at delegated
        rcases List.mem_singleton.1 delegated with rfl
        exact List.mem_singleton_self uri
  | dispatch now caller intent receiver =>
      rw [delegations, perform, Outcome.withoutAnswer, dispatch] at delegated
      split at delegated
      · cases delegated
      · rcases List.mem_filterMap.1 delegated with ⟨event, announced, made⟩
        split at made
        · cases made
          exact mem_of_granted_grantEach announced
        · cases made
  | _ => cases delegated

theorem IsRead.perform (isRead : authority.IsRead) {request : Request}
    (read : ∀ uri ∈ request.uris, uri.IsRead) : (authority.perform request).authority.IsRead := by
  refine Everywhere.perform Grant.stable_isRead isRead request ?_
  intro current now delegation delegated _ _ _
  have same : (current.widened now delegation.grantor delegation.uri delegation.flags
      delegation.grantee).uri = delegation.uri := congrArg GrantKey.uri key_widened
  exact (congrArg Uri.IsRead same).mpr
    (read delegation.uri (uri_mem_of_mem_delegations delegated))

theorem IsRead.persisted (isRead : authority.IsRead) :
    ∀ kept ∈ authority.table.persisted fun _ => true, kept.uri.IsRead := by
  intro kept member
  rcases GrantTable.mem_persisted_iff.1 member with ⟨grant, inTable, _, made⟩
  rcases Grant.toPersisted?_eq_some_iff.1 made with ⟨_, rfl⟩
  exact isRead.held grant inTable

/-- Grants that are made durable are about the same URIs as before. -/
theorem IsRead.promote (isRead : authority.IsRead) (uid : Nat) (uri : Uri) (modes : Modes)
    (now : Timestamp) :
    (authority.promote (authority.promotable uid uri modes) modes now).IsRead := by
  refine ⟨?_, isRead.stored⟩
  intro grant member
  rcases (revises_promote authority uid uri modes now).mem_grants member with
    ⟨prior, before, promoted⟩
  have read := isRead.held prior before
  split at promoted
  · cases promoted
    exact read
  · cases promoted
    exact read

/-- Grants that are made durable are met where they were met before. -/
theorem meetsIn_promote {order : KeyOrder} (meets : authority.table.MeetsIn order) (uid : Nat)
    (uri : Uri) (modes : Modes) (now : Timestamp) :
    (authority.promote (authority.promotable uid uri modes) modes now).table.MeetsIn order := by
  refine meets.foldl_put (fun grant => Grant.key_promote grant modes now) fun grant member => ?_
  rw [GrantTable.mem_grants_iff.1 (mem_promotable.1 member).1]
  rfl

theorem isRead_load (place : Placement) (settings : PermissionSettings) {store : GrantStore}
    (stored : ∀ kept ∈ store.records, kept.uri.IsRead) : (load place settings store).IsRead :=
  ⟨held_load stored, stored⟩

theorem IsRead.rearranged (isRead : authority.IsRead) (order : KeyOrder) :
    (authority.rearranged order).IsRead :=
  ⟨Held.rearranged isRead.held order, isRead.stored⟩

theorem IsRead.advance (isRead : authority.IsRead) {step : Step}
    (read : ∀ uri ∈ step.call.uris, uri.IsRead) : (authority.advance step).IsRead := by
  have met := isRead.rearranged step.order
  rcases step with ⟨order, call⟩
  cases call with
  | ask request => exact met.perform read
  | _ => exact met

/-! ## Authorities that differ in their shards -/

theorem shardCount_load (place : Placement) (settings : PermissionSettings) (store : GrantStore) :
    (load place settings store).shardCount = max settings.shardCount 1 := by
  have kept (records : List PersistedGrant) (table : GrantTable) :
      (records.foldl (fun table kept => table.put (.ofPersisted kept)) table).shards.length =
        table.shards.length := by
    induction records generalizing table with
    | nil => rfl
    | cons record records ih => exact (ih _).trans (List.length_modify ..)
  exact (kept store.records _).trans List.length_replicate

namespace AlikeOn

variable (alike : left.AlikeOn Set.univ right)

include alike

theorem find?_eq : left.table.find? = right.table.find? :=
  funext fun key => alike.grants key trivial

theorem grants_perm : left.table.grants.Perm right.table.grants := by
  apply Shard.Distinct.perm GrantTable.grants_distinct GrantTable.grants_distinct
  intro grant
  rw [GrantTable.mem_grants_iff, GrantTable.mem_grants_iff, alike.find?_eq]

theorem record?_eq (key : GrantKey) : left.table.record? key = right.table.record? key := by
  rw [GrantTable.record?, GrantTable.record?, alike.find?_eq]

theorem persisted_upToTies {condition : Grant → Bool} {selected : PersistedGrant → Bool}
    (recorded : GrantTable.IsRecorded condition selected) :
    PersistedGrant.UpToTies (left.table.persisted condition) (right.table.persisted condition) :=
  GrantTable.persisted_upToTies recorded alike.record?_eq

theorem rearranged (order other : KeyOrder) :
    AlikeOn Set.univ (left.rearranged order) (right.rearranged other) := by
  refine alike.with_tables fun key _ => ?_
  rw [GrantTable.find?_rearranged, GrantTable.find?_rearranged, alike.find?_eq]

theorem grantsOf_eq (isRead : right.IsRead) (uid : Nat) : left.grantsOf uid = right.grantsOf uid := by
  have perm : (left.grantsOf uid).Perm (right.grantsOf uid) :=
    (List.mergeSort_perm _ _).trans
      ((alike.grants_perm.filter _).trans (List.mergeSort_perm _ _).symm)
  refine perm.eq_of_pairwise ?_ Grant.pairwise_mergeSort Grant.pairwise_mergeSort
  -- grants of one user that stand in the same place have the same key
  intro first second firstMember secondMember before after
  rw [perm.mem_iff] at firstMember
  rcases List.mem_filter.1 (List.mem_mergeSort.1 firstMember) with ⟨firstMember, firstOwn⟩
  rcases List.mem_filter.1 (List.mem_mergeSort.1 secondMember) with ⟨secondMember, secondOwn⟩
  have keyed := Grant.key_eq_of_precedes
    ((of_decide_eq_true firstOwn).trans (of_decide_eq_true secondOwn).symm)
    (isRead.held first firstMember) (isRead.held second secondMember) before after
  rw [GrantTable.mem_grants_iff] at firstMember secondMember
  rw [keyed, secondMember, Option.some.injEq] at firstMember
  exact firstMember.symm

theorem evictOverLimit (isRead : right.IsRead) {order : KeyOrder}
    (leftMeets : left.table.MeetsIn order) (rightMeets : right.table.MeetsIn order) (uid : Nat) :
    (left.evictOverLimit uid).1 = (right.evictOverLimit uid).1 ∧
      AlikeOn Set.univ (left.evictOverLimit uid).2 (right.evictOverLimit uid).2 := by
  have limit : left.limit = right.limit := by
    rw [Authority.limit, Authority.limit, alike.maxPersisted]
  have victims : left.overLimit uid = right.overLimit uid := by
    rw [Authority.overLimit, Authority.overLimit, limit,
      GrantTable.persisted_eq_of_meetsIn (GrantTable.isRecorded_grantee uid) alike.record?_eq
        leftMeets rightMeets isRead.persisted]
  rw [Authority.evictOverLimit, Authority.evictOverLimit, victims]
  refine ⟨by rw [alike.find?_eq], ?_⟩
  exact alike.foldl evict id (fun _ found => found.bind fun grant => grant.evict.settled)
    (fun _ _ _ => find?_evict) _

theorem take (isRead : right.IsRead) {order : KeyOrder} (leftMeets : left.table.MeetsIn order)
    (rightMeets : right.table.MeetsIn order) (now : Timestamp) (grantee : Identity) (uri : Uri)
    (modes : Modes) : Outcome.AlikeOn Set.univ (left.take now grantee uri modes)
      (right.take now grantee uri modes) := by
  have found : left.grantsOn grantee.uid uri = right.grantsOn grantee.uid uri :=
    alike.grantsOn trivial grantee.uid
  have promotes :
      left.promotable grantee.uid uri modes = right.promotable grantee.uid uri modes := by
    rw [promotable, promotable, found]
  have leftMeets := meetsIn_promote leftMeets grantee.uid uri modes now
  have rightMeets := meetsIn_promote rightMeets grantee.uid uri modes now
  rw [promotes] at leftMeets
  simp only [Authority.take, found, promotes]
  split
  · exact ⟨rfl, rfl, alike⟩
  split
  · exact ⟨rfl, rfl, alike⟩
  have promoted := alike.foldl (fun table grant => table.put (grant.promote modes now)) Grant.key
    (fun grant _ => some (grant.promote modes now)) (fun _ _ _ => GrantTable.find?_put)
    (right.promotable grantee.uid uri modes)
  have read := isRead.promote grantee.uid uri modes now
  rcases promoted.evictOverLimit read leftMeets rightMeets grantee.uid with ⟨evicted, changed⟩
  simp only [promote, evicted]
  exact changed.saveOrRestore _ _

theorem grantEach (now : Timestamp) (grantor : Identity) (flags : GrantFlags) (grantee : Identity)
    (uris : List Uri) : Outcome.AlikeOn Set.univ (left.grantEach now grantor flags grantee uris)
      (right.grantEach now grantor flags grantee uris) := by
  induction uris generalizing left right with
  | nil => exact ⟨rfl, rfl, alike⟩
  | cons uri uris ih =>
      have first := alike.grant (Set.mem_univ uri.origin) now grantor flags grantee
      rw [Authority.grantEach, Authority.grantEach]
      generalize left.grant now grantor uri flags grantee = ofLeft at first ⊢
      generalize right.grant now grantor uri flags grantee = ofRight at first ⊢
      rcases ofLeft with ⟨answer, ofLeft, events⟩
      rcases ofRight with ⟨otherAnswer, ofRight, otherEvents⟩
      rcases first with ⟨answers, announced, alike⟩
      cases answers
      cases announced
      cases answer with
      | error error => exact ⟨rfl, rfl, alike⟩
      | ok grant =>
          have rest := ih alike
          exact ⟨by simp only [rest.answer], by simp only [rest.events], rest.authority⟩

theorem dispatch (now : Timestamp) (caller : Identity) (intent : Intent) (receiver : Identity) :
    Outcome.AlikeOn Set.univ (left.dispatch now caller intent receiver)
      (right.dispatch now caller intent receiver) := by
  simp only [Authority.dispatch]
  split
  · exact ⟨rfl, rfl, alike⟩
  · exact alike.grantEach now caller _ receiver _

theorem exit (pid : Nat) : (left.exit pid).1 = (right.exit pid).1 ∧
    AlikeOn Set.univ (left.exit pid).2 (right.exit pid).2 := by
  refine ⟨(alike.grants_perm.filter _).length_eq, alike.with_tables ?_⟩
  intro key _
  rw [GrantTable.find?_reviseAll, GrantTable.find?_reviseAll, alike.find?_eq]

theorem writes_eq (request : Request) : left.writes request = right.writes request := by
  rw [Authority.writes, Authority.writes, alike.failing]
  cases request with
  | revoke uri modes user => simp only [saves, alike.revokesDurable (Set.mem_univ uri.origin)]
  | take now grantee uri modes =>
      simp only [saves, promotable, alike.grantsOn (Set.mem_univ uri.origin)]
  | release grantee uri modes =>
      simp only [saves, alike.releasable (Set.mem_univ uri.origin)]
  | _ => rfl

end AlikeOn

/-- Authorities that agree on all but their shards and the order of tied records. -/
structure Alike (left right : Authority) : Prop extends AlikeOn Set.univ left right where
  records : PersistedGrant.UpToTies left.store.records right.store.records

theorem alike_load (place other : Placement) (settings : PermissionSettings) (count : Nat)
    (store : GrantStore) :
    (load place settings store).Alike (load other { settings with shardCount := count } store) where
  providers := rfl
  prefixGrants := rfl
  maxPersisted := rfl
  failing := rfl
  grants key _ := by rw [find?_load, find?_load]
  records := .refl store.records

namespace Alike

variable (alike : left.Alike right)

include alike

theorem rearranged (order other : KeyOrder) :
    (left.rearranged order).Alike (right.rearranged other) :=
  ⟨alike.toAlikeOn.rearranged order other, alike.records⟩

theorem perform (isRead : right.IsRead) (request : Request)
    (choice : request.takes = true →
      ∃ order, left.table.MeetsIn order ∧ right.table.MeetsIn order) :
    Outcome.AlikeOn Set.univ (left.perform request) (right.perform request) ∧
      left.replyTo request = right.replyTo request := by
  have alikeOn := alike.toAlikeOn
  cases request with
  | register info =>
      refine ⟨⟨rfl, rfl, { alikeOn with providers := ?_ }⟩, rfl⟩
      simp only [Authority.perform, done, register, alikeOn.providers]
  | unregister name =>
      refine ⟨⟨rfl, rfl, { alikeOn with providers := ?_ }⟩, ?_⟩
      · simp only [Authority.perform, done, unregister, alikeOn.providers]
      · simp only [replyTo, provider?, alikeOn.providers]
  | grant now grantor uri flags grantee =>
      have outcome := alikeOn.grant (Set.mem_univ uri.origin) now grantor flags grantee
      exact ⟨outcome.withoutAnswer, congrArg Reply.grant outcome.answer⟩
  | dispatch now caller intent receiver =>
      have outcome := alikeOn.dispatch now caller intent receiver
      exact ⟨outcome.withoutAnswer, congrArg Reply.grants outcome.answer⟩
  | revoke uri modes user =>
      have outcome : Outcome.AlikeOn Set.univ (left.revoke uri modes user)
        (right.revoke uri modes user) := alikeOn.revoke (Set.mem_univ uri.origin) user
      exact ⟨outcome.withoutAnswer, congrArg Reply.count outcome.answer⟩
  | take now grantee uri modes =>
      rcases choice rfl with ⟨order, leftMeets, rightMeets⟩
      have outcome := alikeOn.take isRead leftMeets rightMeets now grantee uri modes
      exact ⟨outcome, congrArg Reply.done outcome.answer⟩
  | release grantee uri modes =>
      have outcome : Outcome.AlikeOn Set.univ (left.release grantee uri modes)
        (right.release grantee uri modes) := alikeOn.release (Set.mem_univ uri.origin) grantee
      exact ⟨outcome, congrArg Reply.done outcome.answer⟩
  | exit pid =>
      rcases alikeOn.exit pid with ⟨counted, after⟩
      exact ⟨⟨rfl, rfl, after⟩, congrArg (Reply.count ∘ Except.ok) counted⟩
  | storeFails failing => exact ⟨⟨rfl, rfl, { alikeOn with failing := rfl }⟩, rfl⟩
  | reload =>
      refine ⟨⟨rfl, rfl, ?_⟩, rfl⟩
      refine ⟨rfl, alikeOn.prefixGrants, alikeOn.maxPersisted, alikeOn.failing, ?_⟩
      intro key _
      simp only [Authority.perform, done, reload, find?_load,
        GrantStore.find?_of_upToTies alike.records]
  | rearrange order => exact ⟨⟨rfl, rfl, alikeOn.rearranged order order⟩, rfl⟩

theorem after_perform {request : Request}
    (after : Outcome.AlikeOn Set.univ (left.perform request) (right.perform request)) :
    (left.perform request).authority.Alike (right.perform request).authority := by
  refine ⟨after.authority, ?_⟩
  rw [records_perform, records_perform, alike.toAlikeOn.writes_eq]
  split
  · exact after.authority.persisted_upToTies GrantTable.isRecorded_true
  · exact alike.records

theorem follow (isRead : right.IsRead) (call : Call)
    (choice : call.takes = true →
      ∃ order, left.table.MeetsIn order ∧ right.table.MeetsIn order) :
    (left.reply call).UpToTies (right.reply call) ∧
      (left.follow call).2 = (right.follow call).2 ∧
        (left.follow call).1.Alike (right.follow call).1 := by
  have alikeOn := alike.toAlikeOn
  cases call with
  | ask request =>
      rcases alike.perform isRead request choice with ⟨outcome, replied⟩
      exact ⟨.of_eq replied, outcome.events, alike.after_perform outcome⟩
  | check caller uri modes =>
      refine ⟨.of_eq (congrArg Reply.access ?_), rfl, alike⟩
      exact alikeOn.check (Set.mem_univ uri.origin) caller
  | grantsOf uid =>
      exact ⟨.of_eq (congrArg Reply.listed (alikeOn.grantsOf_eq isRead uid)), rfl, alike⟩
  | persistedBy uid =>
      exact ⟨.kept (alikeOn.persisted_upToTies (GrantTable.isRecorded_grantee uid)), rfl, alike⟩
  | persistedFrom uid =>
      exact ⟨.kept (alikeOn.persisted_upToTies (GrantTable.isRecorded_grantor uid)), rfl, alike⟩

/-- What is seen of one step is the same up to ties, and the authorities are alike after it. -/
theorem step (isRead : right.IsRead) {first second : Step} (same : first.SameChoice second) :
    (left.line first).UpToTies (right.line second) ∧
      (left.advance first).Alike (right.advance second) := by
  rcases first with ⟨order, call⟩
  rcases second with ⟨other, call'⟩
  rcases same with ⟨rfl, choice⟩
  have met := alike.rearranged order other
  have meets (takes : call.takes = true) :
      ∃ shared, (left.rearranged order).table.MeetsIn shared ∧
        (right.rearranged other).table.MeetsIn shared := by
    obtain rfl : order = other := choice takes
    exact ⟨order, left.table.meetsIn_rearranged order, right.table.meetsIn_rearranged order⟩
  rcases met.follow (isRead.rearranged other) call meets with ⟨replied, announced, after⟩
  exact ⟨⟨replied, announced, after.records, after.failing⟩, after⟩

/-- The induction is on the steps: after each of them the authorities are alike. -/
theorem transcript (isRead : right.IsRead) {steps others : List Step}
    (same : List.Forall₂ Step.SameChoice steps others)
    (read : ∀ step ∈ steps, ∀ uri ∈ step.call.uris, uri.IsRead) :
    List.Forall₂ Line.UpToTies (left.transcript steps) (right.transcript others) := by
  induction same generalizing left right with
  | nil => exact .nil
  | cons same _ ih =>
      rw [List.forall_mem_cons] at read
      rcases alike.step isRead same with ⟨seen, after⟩
      exact .cons seen (ih after (isRead.advance (same.call ▸ read.1)) read.2)

end Alike

end Authority

end IntentRouting
