import IntentRouting.NameMap
import IntentRouting.Proofs.Intent.Building

/-!
# What a template gives

An intent that is filled in from a template says which of its fields were taken. There are nine,
data and type being one of them, and each has a flag. What can be said about all of them in the same
way is said by `Intent.IsFilledIn`: a field that is reported has the value of the template, a field
that is not has the value from before, and which fields are reported depends on the template, on what
was set before, and on what may be overwritten.

That filling in again changes nothing follows from this law alone. The fields do not decide one by
one, because neither a package nor a selector is taken while the other one is set, and the package
is settled first. What makes it work is that a field can only be taken again if it was taken the
first time (`Intent.IsFilledIn.contains_of_again`).
-/

namespace IntentRouting

namespace Bundle

variable {after last bundle other : Bundle} {key : String} {entry : String × Value}
  {entries : List (String × Value)}

theorem contains_iff : bundle.contains key = true ↔ key ∈ bundle.keys := by
  rw [contains, get?, keys]
  induction bundle.entries with
  | nil => simp
  | cons entry entries ih =>
      by_cases same : key = entry.1 <;> simp [NameMap.lookup_cons_eq_ite, same, ih]

theorem get?_cons_of_ne (apart : key ≠ entry.1) :
    get? ⟨entry :: entries⟩ key = get? ⟨entries⟩ key := by
  simp [get?, NameMap.lookup_cons_eq_ite, apart]

/-- A bundle with those entries of another one behind its own whose names it does not have, in the
order of the other one. -/
def Completes (after bundle other : Bundle) : Prop :=
  ∃ added, after.entries = bundle.entries ++ added ∧ added.Sublist other.entries ∧
    (added.map (·.1)).Nodup ∧
    (∀ key, key ∈ added.map (·.1) ↔ key ∈ other.keys ∧ key ∉ bundle.keys) ∧
    ∀ entry ∈ added, other.get? entry.1 = some entry.2

/-- A name that is there already is passed over. -/
theorem Completes.cons_of_mem (completes : after.Completes bundle ⟨entries⟩)
    (present : entry.1 ∈ bundle.keys) : after.Completes bundle ⟨entry :: entries⟩ := by
  rcases completes with ⟨added, whole, order, distinct, names, values⟩
  refine ⟨added, whole, order.cons entry, distinct, ?_, ?_⟩
  · intro key
    rw [names]
    simp only [keys, List.map_cons, List.mem_cons]
    constructor
    · rintro ⟨given, absent⟩
      exact ⟨.inr given, absent⟩
    · rintro ⟨rfl | given, absent⟩
      · exact absurd present absent
      · exact ⟨given, absent⟩
  · intro other member
    have absent := ((names other.1).1 (List.mem_map_of_mem member)).2
    rw [get?_cons_of_ne]
    · exact values other member
    · intro same
      exact absent (same ▸ present)

/-- A name that is not there is added before those that follow. -/
theorem Completes.cons_of_notMem (completes : after.Completes ⟨bundle.entries ++ [entry]⟩ ⟨entries⟩)
    (absent : entry.1 ∉ bundle.keys) : after.Completes bundle ⟨entry :: entries⟩ := by
  rcases completes with ⟨added, whole, order, distinct, names, values⟩
  have later : ∀ key, key ∈ added.map (·.1) ↔
      key ∈ entries.map (·.1) ∧ key ∉ bundle.keys ∧ key ≠ entry.1 := by
    intro key
    simp [names, keys]
  refine ⟨entry :: added, by simp [whole], order.cons_cons entry, ?_, ?_, ?_⟩
  · rw [List.map_cons, List.nodup_cons, later]
    exact ⟨by simp, distinct⟩
  · intro key
    simp only [keys, List.map_cons, List.mem_cons, later]
    constructor
    · rintro (rfl | ⟨given, missing, _⟩)
      · exact ⟨.inl rfl, absent⟩
      · exact ⟨.inr given, missing⟩
    · rintro ⟨rfl | given, missing⟩
      · exact .inl rfl
      · by_cases same : key = entry.1
        · exact .inl same
        · exact .inr ⟨given, missing, same⟩
  · intro other member
    rcases List.mem_cons.1 member with rfl | member
    · simp [get?, NameMap.lookup_cons_eq_ite]
    · rw [get?_cons_of_ne ((later other.1).1 (List.mem_map_of_mem member)).2.2]
      exact values other member

/-- The induction is on the entries of the other bundle, and the bundle grows on the way. -/
theorem completes_fillMissing (bundle other : Bundle) :
    (bundle.fillMissing other).Completes bundle other := by
  rcases other with ⟨entries⟩
  rw [fillMissing]
  induction entries generalizing bundle with
  | nil => exact ⟨[], by simp [keys]⟩
  | cons entry entries ih =>
      rw [List.foldl_cons]
      split
      · rename_i present
        exact (ih bundle).cons_of_mem (contains_iff.1 present)
      · rename_i missing
        have absent : entry.1 ∉ bundle.keys := mt contains_iff.2 missing
        have inserted : bundle.insert entry.1 entry.2 = ⟨bundle.entries ++ [entry]⟩ := by
          rw [Bundle.insert, insertEntry_of_notMem absent]
        rw [inserted]
        exact (ih ⟨bundle.entries ++ [entry]⟩).cons_of_notMem absent

/-- What was completed has all names already. -/
theorem Completes.eq_of_again (first : after.Completes bundle other)
    (again : last.Completes after other) : last = after := by
  rcases first with ⟨added, whole, _, _, names, _⟩
  rcases again with ⟨more, wholeAgain, _, _, namesAgain, _⟩
  have nothing : more = [] := by
    rw [List.eq_nil_iff_forall_not_mem]
    intro entry member
    rcases (namesAgain entry.1).1 (List.mem_map_of_mem member) with ⟨given, absent⟩
    apply absent
    rw [keys, whole, List.map_append, List.mem_append]
    by_cases present : entry.1 ∈ bundle.keys
    · exact .inl present
    · exact .inr ((names entry.1).2 ⟨given, present⟩)
  rw [nothing, List.append_nil] at wholeAgain
  rcases after with ⟨entries⟩
  rcases last with ⟨entries⟩
  exact congrArg mk wholeAgain

end Bundle

namespace Intent

/-- What can be taken from a template, and is reported then. -/
inductive Field where
  | action
  /-- The data and the type, which are taken together. -/
  | data
  | identifier
  | categories
  | package
  | selector
  | clip
  | component
  | bounds
deriving DecidableEq

namespace Field

/-- The flag that reports a field. -/
def flag : Field → FillInFlags
  | action => FillInFlags.action
  | data => FillInFlags.data
  | identifier => FillInFlags.identifier
  | categories => FillInFlags.categories
  | package => FillInFlags.package
  | selector => FillInFlags.selector
  | clip => FillInFlags.clipData
  | component => FillInFlags.component
  | bounds => FillInFlags.sourceBounds

/-- Whether an intent sets a field. -/
def isSet (intent : Intent) : Field → Bool
  | action => intent.action.isSome
  | data => intent.hasDataOrType
  | identifier => intent.identifier.isSome
  | categories => !intent.categories.isEmpty
  | package => intent.package.isSome
  | selector => intent.selector.isSome
  | clip => intent.clip.isSome
  | component => intent.component.isSome
  | bounds => intent.bounds.isSome

/-- Whether a field has the same value in two intents. -/
def Same (left right : Intent) : Field → Prop
  | action => left.action = right.action
  | data => left.data = right.data ∧ left.mimeType = right.mimeType
  | identifier => left.identifier = right.identifier
  | categories => left.categories = right.categories
  | package => left.package = right.package
  | selector => left.selector = right.selector
  | clip => left.clip = right.clip
  | component => left.component = right.component
  | bounds => left.bounds = right.bounds

/-- Whether a field of an intent can be taken from a template that sets it. The package that the
intent has in the end matters as well, because it is settled before the selector. -/
def IsOpen (base after : Intent) (allow : FillInFlags) : Field → Prop
  | component => allow.contains FillInFlags.component = true
  | selector => allow.contains FillInFlags.selector = true ∧ after.package = none
  | package =>
      (isSet base package = false ∨ allow.contains FillInFlags.package = true) ∧
        base.selector = none
  | field => isSet base field = false ∨ allow.contains field.flag = true

/-- Whether a field is taken, as it is decided for one field after the other. -/
def isTaken (base template : Intent) (allow : FillInFlags) : Field → Bool
  | component => template.component.isSome && allow.contains FillInFlags.component
  | selector =>
      template.selector.isSome && allow.contains FillInFlags.selector &&
        (base.fillIn template allow).2.package.isNone
  | package =>
      takes template.package.isSome base.package.isSome (allow.contains FillInFlags.package) &&
        base.selector.isNone
  | field => takes (isSet template field) (isSet base field) (allow.contains field.flag)

/-- The place of the flag of a field. -/
def place : Field → Fin 32
  | action => 0
  | data => 1
  | categories => 2
  | component => 3
  | package => 4
  | bounds => 5
  | selector => 6
  | clip => 7
  | identifier => 8

variable {left middle right base template : Intent} {field : Field} {allow flags : FillInFlags}
  {place : Fin 32}

theorem flag_eq_single (field : Field) : field.flag = .single field.place := by
  cases field <;> rfl

theorem contains_flag_iff : flags.contains field.flag = true ↔ field.place ∈ flags := by
  rw [flag_eq_single, FlagSet.contains_single]

theorem place_injective {other : Field} (same : field.place = other.place) : field = other := by
  revert same
  cases field <;> cases other <;> decide

theorem exists_iff {p : Field → Prop} :
    (∃ field, p field) ↔
      ((((((((p action ∨ p data) ∨ p identifier) ∨ p categories) ∨ p package) ∨ p selector) ∨
        p clip) ∨ p component) ∨ p bounds) := by
  constructor
  · rintro ⟨field, holds⟩
    cases field <;> simp [holds]
  · rintro ((((((((holds | holds) | holds) | holds) | holds) | holds) | holds) | holds) | holds) <;>
      exact ⟨_, holds⟩

theorem Same.trans (first : field.Same left middle) (second : field.Same middle right) :
    field.Same left right := by
  cases field with
  | data => exact ⟨first.1.trans second.1, first.2.trans second.2⟩
  | _ => exact Eq.trans first second

theorem Same.symm (same : field.Same left right) : field.Same right left := by
  cases field with
  | data => exact ⟨same.1.symm, same.2.symm⟩
  | _ => exact Eq.symm same

theorem Same.isSet_eq (same : field.Same left right) : isSet left field = isSet right field := by
  cases field with
  | data => rw [isSet, isSet, hasDataOrType, hasDataOrType, same.1, same.2]
  | _ => simp only [isSet, show _ = _ from same]

theorem isTaken_iff :
    isTaken base template allow field = true ↔
      isSet template field = true ∧ field.IsOpen base (base.fillIn template allow).2 allow := by
  cases field <;> simp [isTaken, IsOpen, takes, isSet, flag, and_assoc]

theorem mem_fieldsIf {condition : Bool} :
    place ∈ fieldsIf condition field.flag ↔ condition = true ∧ place = field.place := by
  cases condition <;> simp [fieldsIf, flag_eq_single]

theorem mem_fillIn_iff :
    place ∈ (base.fillIn template allow).1 ↔
      ∃ field, isTaken base template allow field = true ∧ place = field.place := by
  simp only [exists_iff, ← mem_fieldsIf, ← FlagSet.mem_union]
  rfl

/-- A flag is reported for the fields that are taken. -/
theorem contains_fillIn_iff :
    (base.fillIn template allow).1.contains field.flag = true ↔
      isTaken base template allow field = true := by
  rw [contains_flag_iff, mem_fillIn_iff]
  constructor
  · rintro ⟨other, taken, same⟩
    rwa [place_injective same]
  · intro taken
    exact ⟨field, taken, rfl⟩

theorem same_of_isTaken (taken : isTaken base template allow field = true) :
    field.Same (base.fillIn template allow).2 template := by
  cases field with
  | data => exact ⟨if_pos taken, if_pos taken⟩
  | _ => exact if_pos taken

theorem same_of_not_isTaken (missing : ¬isTaken base template allow field = true) :
    field.Same (base.fillIn template allow).2 base := by
  cases field with
  | data => exact ⟨if_neg missing, if_neg missing⟩
  | _ => exact if_neg missing

end Field

/-- Two intents with the same fields, flags and extras are equal. -/
theorem eq_of_same {left right : Intent} (fields : ∀ field : Field, field.Same left right)
    (flags : left.flags = right.flags) (extras : left.extras = right.extras) : left = right := by
  have action := fields .action
  have data := fields .data
  have identifier := fields .identifier
  have categories := fields .categories
  have package := fields .package
  have selector := fields .selector
  have clip := fields .clip
  have component := fields .component
  have bounds := fields .bounds
  cases left
  cases right
  simp_all [Field.Same]

/-- What an intent becomes that is filled in from a template, and what is reported of it. -/
structure IsFilledIn (base template after : Intent) (allow changed : FillInFlags) : Prop where
  /-- A field that is not reported has its old value. -/
  kept : ∀ field : Field, ¬changed.contains field.flag = true → field.Same after base
  /-- A field that is reported has the value of the template. -/
  taken : ∀ field : Field, changed.contains field.flag = true → field.Same after template
  given : ∀ field : Field, changed.contains field.flag = true → field.isSet template = true
  unset_or_allowed : ∀ field : Field, changed.contains field.flag = true →
    field.isSet base = false ∨ allow.contains field.flag = true
  component : changed.contains FillInFlags.component = true →
    allow.contains FillInFlags.component = true
  selector : changed.contains FillInFlags.selector = true →
    allow.contains FillInFlags.selector = true ∧ after.package = none
  package : changed.contains FillInFlags.package = true → base.selector = none
  /-- Whatever can be taken is taken. -/
  complete : ∀ field : Field, field.isSet template = true → field.IsOpen base after allow →
    changed.contains field.flag = true
  /-- Nothing but fields is reported. -/
  only : ∀ place ∈ changed, ∃ field : Field, place = field.place
  flags : after.flags = base.flags ∪ template.flags
  extras : after.extras.Completes base.extras template.extras

namespace IsFilledIn

variable {base template after last : Intent} {allow fewer changed more : FillInFlags}
  {field : Field}

theorem of_fillIn (base template : Intent) (allow : FillInFlags) :
    base.IsFilledIn template (base.fillIn template allow).2 allow (base.fillIn template allow).1 := by
  have decided : ∀ field : Field, (base.fillIn template allow).1.contains field.flag = true →
      field.isSet template = true ∧ field.IsOpen base (base.fillIn template allow).2 allow :=
    fun _ changed => Field.isTaken_iff.1 (Field.contains_fillIn_iff.1 changed)
  refine ⟨?_, ?_, fun field changed => (decided field changed).1, ?_,
    fun changed => (decided .component changed).2, fun changed => (decided .selector changed).2,
    fun changed => (decided .package changed).2.2, ?_, ?_, rfl,
    Bundle.completes_fillMissing base.extras template.extras⟩
  · intro field kept
    exact Field.same_of_not_isTaken (mt Field.contains_fillIn_iff.2 kept)
  · intro field changed
    exact Field.same_of_isTaken (Field.contains_fillIn_iff.1 changed)
  · intro field changed
    have isOpen := (decided field changed).2
    cases field with
    | component => exact .inr isOpen
    | selector => exact .inr isOpen.1
    | package => exact isOpen.1
    | _ => exact isOpen
  · intro field given isOpen
    exact Field.contains_fillIn_iff.2 (Field.isTaken_iff.2 ⟨given, isOpen⟩)
  · intro place member
    rcases Field.mem_fillIn_iff.1 member with ⟨field, _, same⟩
    exact ⟨field, same⟩

/-- What is not set in the end was not set before, because nothing is taken that is not set. -/
theorem isSet_eq_false (filled : base.IsFilledIn template after allow changed) (field : Field)
    (unset : field.isSet after = false) : field.isSet base = false := by
  by_cases taken : changed.contains field.flag = true
  · rw [(filled.taken field taken).isSet_eq, filled.given field taken] at unset
    cases unset
  · rwa [(filled.kept field taken).isSet_eq] at unset

/-- A field that is taken again was taken the first time. -/
theorem contains_of_again (filled : base.IsFilledIn template after allow changed)
    (again : after.IsFilledIn template last fewer more)
    (less : ∀ field : Field, fewer.contains field.flag = true → allow.contains field.flag = true)
    (taken : more.contains field.flag = true) : changed.contains field.flag = true := by
  apply filled.complete field (again.given field taken)
  have unset := (again.unset_or_allowed field taken).imp (filled.isSet_eq_false field) (less field)
  cases field with
  | component => exact less .component (again.component taken)
  | selector =>
      have ended := again.selector taken
      refine ⟨less .selector ended.1, ?_⟩
      have missing := again.isSet_eq_false .package (by simp [Field.isSet, ended.2])
      simpa [Field.isSet] using missing
  | package =>
      refine ⟨unset, ?_⟩
      have missing := filled.isSet_eq_false .selector (by simp [Field.isSet, again.package taken])
      simpa [Field.isSet] using missing
  | _ => exact unset

theorem same_of_again (filled : base.IsFilledIn template after allow changed)
    (again : after.IsFilledIn template last fewer more)
    (less : ∀ field : Field, fewer.contains field.flag = true → allow.contains field.flag = true)
    (field : Field) : field.Same last after := by
  by_cases taken : more.contains field.flag = true
  · exact (again.taken field taken).trans
      (filled.taken field (filled.contains_of_again again less taken)).symm
  · exact again.kept field taken

/-- Filling in again from the same template, with as much allowed or less, changes nothing. -/
theorem eq_of_again (filled : base.IsFilledIn template after allow changed)
    (again : after.IsFilledIn template last fewer more)
    (less : ∀ field : Field, fewer.contains field.flag = true → allow.contains field.flag = true) :
    last = after := by
  apply eq_of_same
  · exact filled.same_of_again again less
  · rw [again.flags, filled.flags]
    ext place
    simp
  · exact filled.extras.eq_of_again again.extras

/-- If nothing may be overwritten, then nothing is reported the second time. -/
theorem eq_empty_of_again (filled : base.IsFilledIn template after allow changed)
    (again : after.IsFilledIn template last .empty more) : more = .empty := by
  have none : ∀ field : Field, ¬(FlagSet.empty : FillInFlags).contains field.flag = true := by
    intro field
    simp [Field.contains_flag_iff]
  ext place
  simp only [FlagSet.not_mem_empty, iff_false]
  intro member
  rcases again.only place member with ⟨field, rfl⟩
  have taken := Field.contains_flag_iff.2 member
  have first := filled.contains_of_again again (fun field some => absurd some (none field)) taken
  have unset := (again.unset_or_allowed field taken).resolve_right (none field)
  rw [(filled.taken field first).isSet_eq, filled.given field first] at unset
  cases unset

end IsFilledIn

/-- What is taken from a template is decided field by field, and taking it again changes nothing. -/
theorem fillIn_takes_once (base template : Intent) (allow : FillInFlags) :
    let changed := (base.fillIn template allow).1
    let after := (base.fillIn template allow).2
    base.IsFilledIn template after allow changed ∧
      (after.fillIn template allow).2 = after ∧ (after.fillIn template .empty).1 = .empty := by
  have filled := IsFilledIn.of_fillIn base template allow
  refine ⟨filled, ?_, ?_⟩
  · exact filled.eq_of_again (IsFilledIn.of_fillIn _ template allow) fun _ => id
  · exact filled.eq_empty_of_again (IsFilledIn.of_fillIn _ template .empty)

end Intent

end IntentRouting
