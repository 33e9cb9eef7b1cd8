import IntentRouting.Permission.Mode
import IntentRouting.Time.Timestamp
import IntentRouting.Uri.Path

/-!
# Grants

A grant gives a user access to one URI, or to everything beneath it. Its modes are held in three
sets: transient ones, which last as long as the process they were granted to, persistable ones,
which the grantee may make durable, and persisted ones, which are. What can be used is what is
transient or persisted.
-/

namespace IntentRouting

/-- What tells grants apart. -/
structure GrantKey where
  grantee : Nat
  uri : Uri
  /-- Whether the grant extends to everything beneath the URI. -/
  beneath : Bool
deriving DecidableEq

/-- Access of a user to a URI. -/
structure Grant where
  uri : Uri
  /-- Whether the grant extends to everything beneath the URI. -/
  beneath : Bool
  grantee : Nat
  grantor : Nat
  /-- The process whose end takes the transient modes away. -/
  session : Option Nat
  transient : Modes
  persistable : Modes
  persisted : Modes
  grantedAt : Timestamp
  persistedAt : Option Timestamp
deriving DecidableEq

/-- What is kept of a grant that is persisted. -/
structure PersistedGrant where
  uri : Uri
  beneath : Bool
  grantee : Nat
  grantor : Nat
  modes : Modes
  persistedAt : Timestamp
deriving DecidableEq

namespace Grant

/-- The grant without modes that a key stands for. -/
def ofKey (key : GrantKey) (grantor : Nat) (now : Timestamp) : Grant :=
  { uri := key.uri, beneath := key.beneath, grantee := key.grantee, grantor, session := none,
    transient := .empty, persistable := .empty, persisted := .empty, grantedAt := now,
    persistedAt := none }

def key (grant : Grant) : GrantKey := ⟨grant.grantee, grant.uri, grant.beneath⟩

/-- The modes that can be used. -/
def effective (grant : Grant) : Modes := grant.transient ∪ grant.persisted

/-- Whether a grant holds no mode and promises none. -/
def isEmpty (grant : Grant) : Bool := grant.effective.isEmpty && grant.persistable.isEmpty

theorem isEmpty_eq_false_iff {grant : Grant} : grant.isEmpty = false ↔
    ∃ bit, bit ∈ grant.transient ∨ bit ∈ grant.persistable ∨ bit ∈ grant.persisted := by
  rw [isEmpty, Bool.and_eq_false_iff, FlagSet.isEmpty_eq_false_iff, FlagSet.isEmpty_eq_false_iff]
  simp only [effective, FlagSet.mem_union]
  grind

/-- Whether a grant is about a URI. -/
def covers (grant : Grant) (uri : Uri) : Bool :=
  if grant.beneath then uri.isBeneath grant.uri else grant.uri = uri

/-- What is kept of a grant, if it is persisted. -/
def toPersisted? (grant : Grant) : Option PersistedGrant :=
  if grant.persisted.isEmpty then none
  else
    some ⟨grant.uri, grant.beneath, grant.grantee, grant.grantor, grant.persisted,
      grant.persistedAt.getD grant.grantedAt⟩

theorem toPersisted?_eq_some_iff {grant : Grant} {kept : PersistedGrant} :
    grant.toPersisted? = some kept ↔ grant.persisted.isEmpty = false ∧
      ⟨grant.uri, grant.beneath, grant.grantee, grant.grantor, grant.persisted,
        grant.persistedAt.getD grant.grantedAt⟩ = kept := by
  simp only [toPersisted?]
  split <;> simp_all

/-- The grant of which something was kept. -/
def ofPersisted (kept : PersistedGrant) : Grant :=
  { uri := kept.uri, beneath := kept.beneath, grantee := kept.grantee, grantor := kept.grantor,
    session := none, transient := .empty, persistable := kept.modes, persisted := kept.modes,
    grantedAt := kept.persistedAt, persistedAt := some kept.persistedAt }

/-- A grant with more modes, given to a process. -/
def widen (grant : Grant) (grantor pid : Nat) (modes : Modes) (persistable : Bool) : Grant :=
  { grant with
    grantor
    session := some pid
    transient := grant.transient ∪ modes
    persistable := if persistable then grant.persistable ∪ modes else grant.persistable }

def without (grant : Grant) (modes : Modes) : Grant :=
  { grant with
    transient := grant.transient \ modes
    persistable := grant.persistable \ modes
    persisted := grant.persisted \ modes }

/-- A grant with some modes made durable. -/
def promote (grant : Grant) (modes : Modes) (now : Timestamp) : Grant :=
  { grant with persisted := grant.persisted ∪ modes, persistedAt := some now }

/-- A grant with some modes not durable any more. -/
def release (grant : Grant) (modes : Modes) : Grant :=
  let persisted := grant.persisted \ modes
  { grant with
    persisted
    persistable := grant.persistable \ modes
    persistedAt := if persisted.isEmpty then none else grant.persistedAt }

/-- A grant that is not durable any more. -/
def evict (grant : Grant) : Grant :=
  { grant with persisted := .empty, persistable := .empty, persistedAt := none }

def endSession (grant : Grant) : Grant :=
  { grant with
    transient := .empty
    session := none
    persistable := grant.persistable ∩ grant.persisted }

/-- A grant with its durable part as it was before. -/
def restore (grant prior : Grant) : Grant :=
  { grant with
    persisted := prior.persisted
    persistable := grant.persistable ∪ prior.persistable
    persistedAt := prior.persistedAt }

section Key

variable (grant prior : Grant) (key : GrantKey) (grantor pid : Nat) (modes : Modes)
  (persistable : Bool) (now : Timestamp)

@[simp]
theorem key_ofKey : (ofKey key grantor now).key = key := rfl

@[simp]
theorem key_widen : (grant.widen grantor pid modes persistable).key = grant.key := rfl

@[simp]
theorem key_without : (grant.without modes).key = grant.key := rfl

@[simp]
theorem key_promote : (grant.promote modes now).key = grant.key := rfl

@[simp]
theorem key_release : (grant.release modes).key = grant.key := rfl

@[simp]
theorem key_evict : grant.evict.key = grant.key := rfl

@[simp]
theorem key_endSession : grant.endSession.key = grant.key := rfl

@[simp]
theorem key_restore : (grant.restore prior).key = grant.key := rfl

end Key

theorem mem_persistable_widen {grant : Grant} {grantor pid : Nat} {modes : Modes}
    {persistable : Bool} {bit : Fin 32} :
    bit ∈ (grant.widen grantor pid modes persistable).persistable ↔
      bit ∈ grant.persistable ∨ persistable = true ∧ bit ∈ modes := by
  simp only [widen]
  cases persistable <;> simp

section Restore

variable (grant : Grant) (modes : Modes) (now : Timestamp)

@[simp]
theorem restore_promote : (grant.promote modes now).restore grant = grant := by
  have same : grant.persistable ∪ grant.persistable = grant.persistable := by ext; simp
  simp [restore, promote, same]

@[simp]
theorem restore_evict : grant.evict.restore grant = grant := by
  have same : .empty ∪ grant.persistable = grant.persistable := by ext; simp
  simp [restore, evict, same]

@[simp]
theorem restore_release : (grant.release modes).restore grant = grant := by
  have same : grant.persistable \ modes ∪ grant.persistable = grant.persistable := by
    ext
    simp only [FlagSet.mem_union, FlagSet.mem_sdiff]
    exact ⟨fun held => held.elim And.left id, .inr⟩
  simp [restore, release, same]

@[simp]
theorem restore_to_promote : grant.restore (grant.promote modes now) = grant.promote modes now := by
  have same : grant.persistable ∪ grant.persistable = grant.persistable := by ext; simp
  simp [restore, promote, same]

@[simp]
theorem evict_promote : (grant.promote modes now).evict = grant.evict := rfl

end Restore

/-- What is left of a grant: nothing, if it is empty. -/
def settled (grant : Grant) : Option Grant := if grant.isEmpty then none else some grant

theorem settled_eq_some_iff {grant left : Grant} :
    grant.settled = some left ↔ grant.isEmpty = false ∧ grant = left := by
  simp only [settled]
  split <;> simp_all

theorem key_of_settled {grant left : Grant} (kept : grant.settled = some left) :
    left.key = grant.key := by
  rw [(settled_eq_some_iff.1 kept).2]

/-- A grant that was put back over what a change left of it is as before the change. -/
theorem getD_restore_settled {left prior : Grant} (restores : left.restore prior = prior) :
    (left.settled.map (·.restore prior)).getD prior = prior := by
  simp only [settled]
  split
  · rfl
  · exact restores

/-- The grants of one user are listed by URI, the one for the URI alone first. -/
def precedes (left right : Grant) : Bool :=
  ((left.uri.compare right.uri).then (compare left.beneath.toNat right.beneath.toNat)).isLE

end Grant

namespace PersistedGrant

/-- What tells the grant apart of which a record is kept. -/
def key (kept : PersistedGrant) : GrantKey := ⟨kept.grantee, kept.uri, kept.beneath⟩

def isRead (kept : PersistedGrant) : Bool := kept.modes.contains Modes.read

def isWrite (kept : PersistedGrant) : Bool := kept.modes.contains Modes.write

/-- The order from the oldest to the newest, and by URI where the time is the same. -/
def compare (left right : PersistedGrant) : Ordering :=
  (left.persistedAt.compare right.persistedAt).then (left.uri.compare right.uri)

theorem compare_eq_compareLex : compare =
    compareLex (fun left right => left.persistedAt.compare right.persistedAt)
      (compareOn fun kept => kept.uri.text) := rfl

instance : Std.TransCmp
    fun left right : PersistedGrant => left.persistedAt.compare right.persistedAt where
  eq_swap := @fun left right =>
    @Std.OrientedCmp.eq_swap Timestamp Timestamp.compare _ left.persistedAt right.persistedAt
  isLE_trans := @fun left middle right =>
    @Std.TransCmp.isLE_trans Timestamp Timestamp.compare _ left.persistedAt middle.persistedAt
      right.persistedAt

instance : Std.TransCmp compare := by
  rw [compare_eq_compareLex]
  infer_instance

/-- Whether a record stands before another, or in the same place. -/
def precedes (left right : PersistedGrant) : Bool := (left.compare right).isLE

theorem precedes_trans (left middle right : PersistedGrant) (first : left.precedes middle = true)
    (second : middle.precedes right = true) : left.precedes right = true :=
  Std.TransCmp.isLE_trans first second

theorem precedes_total (left right : PersistedGrant) :
    (left.precedes right || right.precedes left) = true := by
  have swap : left.compare right = (right.compare left).swap := Std.OrientedCmp.eq_swap
  rw [precedes, precedes, swap]
  cases right.compare left <;> rfl

/-- What stands before a record is not newer. -/
theorem isLE_persistedAt_of_precedes {left right : PersistedGrant}
    (before : left.precedes right = true) :
    (left.persistedAt.compare right.persistedAt).isLE = true := by
  rw [precedes, compare] at before
  cases moments : left.persistedAt.compare right.persistedAt with
  | lt => rfl
  | eq => rfl
  | gt => simp [moments] at before

@[simp]
theorem key_ofPersisted (kept : PersistedGrant) : (Grant.ofPersisted kept).key = kept.key := rfl

theorem key_of_toPersisted? {grant : Grant} {kept : PersistedGrant}
    (made : grant.toPersisted? = some kept) : kept.key = grant.key := by
  rcases Grant.toPersisted?_eq_some_iff.1 made with ⟨_, rfl⟩
  rfl

end PersistedGrant

end IntentRouting
