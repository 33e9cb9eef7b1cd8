import IntentRouting.Intent.Link.Reader
import IntentRouting.Proofs.Text.Cutting
import IntentRouting.Proofs.Uri.Escapes

/-!
# What an entry does

An entry fails, changes the intent that is described, or sets the scheme (`Effect`), and which of
these it does is decided by the entry alone. So what is completed has no part in whether entries can
be read (`Alike.applyAll`), and entries set no scheme that is longer than they are and neither data
nor a selector of the intent itself (`Within.applyAll`).
-/

namespace IntentRouting.Intent

open Text.Utf8 (size)

namespace Parsed

variable {left right parsed after : Parsed} {entry : List Char} {limit : Nat}

section Effect

variable {step other : Parsed → Except Malformed Parsed} {value : String}

/-- What every change of an intent by an entry leaves as it is. Extras are the only fields that it can
reach in which an intent could be nested, and it puts none but those of simple types. -/
structure Keeps (change : Intent → Intent) : Prop where
  data : ∀ intent, (change intent).data = intent.data
  selector : ∀ intent, (change intent).selector = intent.selector
  clip : ∀ intent, (change intent).clip = intent.clip
  extras : ∀ intent, (change intent).extras = intent.extras ∨
    ∃ tag text key value, readTagged? tag text = some (some value) ∧
      (change intent).extras = intent.extras.insert key value

theorem Keeps.of_fields {change : Intent → Intent}
    (same : ∀ intent, (change intent).data = intent.data ∧
      (change intent).selector = intent.selector ∧ (change intent).clip = intent.clip ∧
        (change intent).extras = intent.extras) : Keeps change where
  data := fun intent => (same intent).1
  selector := fun intent => (same intent).2.1
  clip := fun intent => (same intent).2.2.1
  extras := fun intent => .inl (same intent).2.2.2

/-- What a step does to all that was read before it. -/
inductive Effect (value : String) (step : Parsed → Except Malformed Parsed) : Prop
  | fails (cause : Malformed) (fails : ∀ parsed, step parsed = .error cause)
  | changes (change : Intent → Intent)
      (changes : ∀ parsed, step parsed = .ok (parsed.update change)) (keeps : Keeps change)
  | schemes (schemes : ∀ parsed, step parsed = parsed.applyScheme value)

theorem effect_ite {condition : Prop} [Decidable condition] (yes : Effect value step)
    (no : Effect value other) :
    Effect value fun parsed => if condition then step parsed else other parsed := by
  by_cases given : condition
  · simpa [given] using yes
  · simpa [given] using no

theorem effect_map {α : Type} (result : Except Malformed α) (change : α → Intent → Intent)
    (keeps : ∀ field, Keeps (change field)) :
    Effect value fun parsed => result.map fun field => parsed.update (change field) := by
  cases result with
  | error cause => exact .fails cause fun _ => rfl
  | ok field => exact .changes (change field) (fun _ => rfl) (keeps field)

theorem effect_applyExtra (tag : Char) (key : List Char) (value : String) :
    Effect value (·.applyExtra tag key value) := by
  simp only [applyExtra]
  cases Uri.decode (String.ofList key) with
  | error cause => exact .fails cause fun _ => rfl
  | ok name =>
      dsimp only
      rcases read : readTagged? tag value with _ | _ | extra
      · exact .fails _ fun _ => rfl
      · exact .fails _ fun _ => rfl
      · refine .changes _ (fun _ => rfl) ⟨fun _ => rfl, fun _ => rfl, fun _ => rfl, fun _ => ?_⟩
        exact .inr ⟨tag, value, name, extra, read, rfl⟩

theorem effect_applyOther (key : List Char) (value : String) :
    Effect value (·.applyOther key value) := by
  by_cases dotted : ∃ tag first rest, key = tag :: '.' :: first :: rest
  · rcases dotted with ⟨tag, first, rest, rfl⟩
    simp only [applyOther]
    exact effect_ite (effect_applyExtra tag (first :: rest) value) (.fails _ fun _ => rfl)
  · refine .fails (.fragmentKey (String.ofList key)) fun parsed => ?_
    rw [applyOther.eq_def]
    split
    · exact absurd ⟨_, _, _, rfl⟩ dotted
    · rfl

theorem effect_applyFlags (value : String) : Effect value fun parsed =>
    match readFlags? value.toList with
    | some flags => .ok (parsed.update fun intent => { intent with flags })
    | none => .error (.launchFlags value) := by
  cases readFlags? value.toList with
  | none => exact .fails _ fun _ => rfl
  | some flags => exact .changes _ (fun _ => rfl) (.of_fields fun _ => ⟨rfl, rfl, rfl, rfl⟩)

theorem effect_apply (key : List Char) (value : String) : Effect value (·.apply key value) := by
  simp only [apply]
  refine effect_ite (.changes _ (fun _ => rfl) ?_) ?_
  · exact .of_fields fun _ => ⟨rfl, rfl, rfl, rfl⟩
  refine effect_ite (.changes _ (fun _ => rfl) ?_) ?_
  · exact .of_fields fun _ => ⟨rfl, rfl, rfl, rfl⟩
  refine effect_ite (.changes _ (fun _ => rfl) ?_) ?_
  · exact .of_fields fun _ => ⟨rfl, rfl, rfl, rfl⟩
  refine effect_ite (.changes _ (fun _ => rfl) ?_) ?_
  · exact .of_fields fun _ => ⟨rfl, rfl, rfl, rfl⟩
  refine effect_ite (effect_applyFlags value) ?_
  refine effect_ite (.changes _ (fun _ => rfl) ?_) ?_
  · exact .of_fields fun _ => ⟨rfl, rfl, rfl, rfl⟩
  refine effect_ite (effect_map _ _ ?_) ?_
  · exact fun _ => .of_fields fun _ => ⟨rfl, rfl, rfl, rfl⟩
  refine effect_ite (effect_map _ _ ?_) ?_
  · exact fun _ => .of_fields fun _ => ⟨rfl, rfl, rfl, rfl⟩
  exact effect_ite (.schemes fun _ => rfl) (effect_applyOther key value)

theorem exists_effect_applyText (entry : List Char) :
    ∃ value : String, size value.toList ≤ size entry ∧ Effect value (·.applyText entry) := by
  simp only [applyText]
  cases cut : Text.cut? '=' entry with
  | none => exact ⟨"", Nat.zero_le _, .fails _ fun _ => rfl⟩
  | some parts =>
      rcases parts with ⟨key, raw⟩
      have whole := Text.eq_append_of_cut? cut
      dsimp only
      cases decoded : Uri.decode (String.ofList raw) with
      | error cause => exact ⟨"", Nat.zero_le _, .fails cause fun _ => rfl⟩
      | ok value =>
          refine ⟨value, ?_, effect_apply key value⟩
          have shorter := Uri.size_le_of_decode decoded
          simp only [whole, String.toList_ofList, Text.Utf8.size_append,
            Text.Utf8.size_cons] at shorter ⊢
          omega

end Effect

section Reading

variable {motive : Parsed → Prop} {entries : List (List Char)}

/-- What holds after every change that an entry can make, and after every scheme that it can set, holds
when it was read. -/
theorem holds_applyText (updates : ∀ change, Keeps change → motive (parsed.update change))
    (schemes : ∀ value : String, size value.toList ≤ size entry →
      parsed.applyScheme value = .ok after → motive after)
    (applied : parsed.applyText entry = .ok after) : motive after := by
  rcases exists_effect_applyText entry with ⟨value, shorter, effect⟩
  cases effect with
  | fails cause fails =>
      rw [fails] at applied
      cases applied
  | changes change changes keeps =>
      rw [changes] at applied
      cases applied
      exact updates change keeps
  | schemes applies =>
      rw [applies] at applied
      exact schemes value shorter applied

/-- What a selector that begins and every entry preserve holds when all entries were read. -/
theorem holds_applyAll
    (selects : ∀ parsed : Parsed, motive parsed → motive { parsed with selector := some .empty })
    (reads : ∀ entry ∈ entries, ∀ parsed after : Parsed, motive parsed →
      parsed.applyText entry = .ok after → motive after)
    (start : motive parsed) (applied : parsed.applyAll entries = .ok after) : motive after := by
  induction entries generalizing parsed with
  | nil => cases applied
  | cons entry entries ih =>
      rw [List.forall_mem_cons] at reads
      rw [Parsed.applyAll] at applied
      split at applied
      · split at applied
        · cases applied
          exact start
        · cases applied
      split at applied
      · exact ih reads.2 (selects parsed start) applied
      split at applied
      · cases applied
      · rename_i middle read
        exact ih reads.2 (reads.1 parsed middle start read) applied

end Reading

section Alike

/-- Readings that fail for the same cause, or that name the same scheme and describe the same one of
intent and selector. -/
inductive Alike : Except Malformed Parsed → Except Malformed Parsed → Prop
  | fails (cause : Malformed) : Alike (.error cause) (.error cause)
  | reads {left right : Parsed} (selects : left.selector.isSome = right.selector.isSome)
      (names : left.scheme = right.scheme) : Alike (.ok left) (.ok right)

theorem Alike.update (alike : Alike (.ok left) (.ok right)) (change : Intent → Intent) :
    Alike (.ok (left.update change)) (.ok (right.update change)) := by
  cases alike with
  | reads selects names =>
      rcases left with ⟨_, _ | _, _⟩ <;> rcases right with ⟨_, _ | _, _⟩
      · exact .reads rfl names
      · cases selects
      · cases selects
      · exact .reads rfl names

theorem Alike.applyScheme (alike : Alike (.ok left) (.ok right)) (value : String) :
    Alike (left.applyScheme value) (right.applyScheme value) := by
  cases alike with
  | reads selects names =>
      rcases left with ⟨_, _ | _, _⟩ <;> rcases right with ⟨_, _ | _, _⟩
      · exact .reads rfl rfl
      · cases selects
      · cases selects
      · simp only [Parsed.applyScheme]
        cases Uri.parse (value ++ ":") with
        | error cause => exact .fails cause
        | ok data => exact .reads rfl names

theorem Alike.applyText (alike : Alike (.ok left) (.ok right)) (entry : List Char) :
    Alike (left.applyText entry) (right.applyText entry) := by
  rcases exists_effect_applyText entry with ⟨value, _, effect⟩
  cases effect with
  | fails cause fails =>
      rw [fails, fails]
      exact .fails cause
  | changes change changes keeps =>
      rw [changes, changes]
      exact alike.update change
  | schemes schemes =>
      rw [schemes, schemes]
      exact alike.applyScheme value

/-- What entries complete has no part in whether they can be read. -/
theorem Alike.applyAll (alike : Alike (.ok left) (.ok right)) (entries : List (List Char)) :
    Alike (left.applyAll entries) (right.applyAll entries) := by
  induction entries generalizing left right with
  | nil => exact .fails _
  | cons entry entries ih =>
      have read := alike.applyText entry
      simp only [Parsed.applyAll]
      by_cases last : entry = fragmentEnd
      · rw [if_pos last, if_pos last]
        split
        · exact alike
        · exact .fails _
      rw [if_neg last, if_neg last]
      by_cases selects : entry = "SEL".toList
      · rw [if_pos selects, if_pos selects]
        cases alike with
        | reads _ names => exact ih (.reads rfl names)
      rw [if_neg selects, if_neg selects]
      generalize left.applyText entry = ofLeft at read
      generalize right.applyText entry = ofRight at read
      cases read with
      | fails cause => exact .fails cause
      | reads selects names => exact ih (.reads selects names)

end Alike

section Within

/-- Whether entries have set neither data nor a selector of the intent, and no scheme beyond some
size. -/
structure Within (parsed : Parsed) (limit : Nat) : Prop where
  data : parsed.intent.data = none
  selector : parsed.intent.selector = none
  scheme : ∀ scheme ∈ parsed.scheme, size scheme.toList ≤ limit

theorem Within.update {change : Intent → Intent} (within : parsed.Within limit)
    (keeps : Keeps change) : (parsed.update change).Within limit := by
  rcases parsed with ⟨intent, _ | selector, scheme⟩
  · exact ⟨(keeps.data intent).trans within.data, (keeps.selector intent).trans within.selector,
      within.scheme⟩
  · exact ⟨within.data, within.selector, within.scheme⟩

theorem Within.applyScheme {value : String} (within : parsed.Within limit)
    (small : size value.toList ≤ limit) (applied : parsed.applyScheme value = .ok after) :
    after.Within limit := by
  rw [Parsed.applyScheme] at applied
  split at applied
  · cases applied
    refine ⟨within.data, within.selector, ?_⟩
    rintro _ ⟨⟩
    exact small
  · cases read : Uri.parse (value ++ ":") with
    | error cause => simp [read, Except.map] at applied
    | ok data =>
        simp only [read, Except.map, Except.ok.injEq] at applied
        subst applied
        exact ⟨within.data, within.selector, within.scheme⟩

theorem Within.applyText (within : parsed.Within limit) (small : size entry ≤ limit)
    (applied : parsed.applyText entry = .ok after) : after.Within limit :=
  holds_applyText (motive := (·.Within limit)) (fun _ keeps => within.update keeps)
    (fun _ shorter applied => within.applyScheme (shorter.trans small) applied) applied

theorem Within.applyAll {entries : List (List Char)} (within : parsed.Within limit)
    (small : ∀ entry ∈ entries, size entry ≤ limit)
    (applied : parsed.applyAll entries = .ok after) : after.Within limit :=
  holds_applyAll (motive := (·.Within limit))
    (fun _ within => ⟨within.data, within.selector, within.scheme⟩)
    (fun entry member _ _ within applied => within.applyText (small entry member) applied) within
    applied

end Within

end Parsed

section Fragment

variable {parsed : Parsed} {entries : List Char}

/-- Whether a text is a sequence of entries that name a scheme, or none. -/
def AreEntries (entries : List Char) (scheme : Option String) : Prop :=
  ∃ parsed, readFragment entries .empty = .ok parsed ∧ parsed.scheme = scheme

/-- Entries can be read over any intent if they can be read over some, and name the same scheme. -/
theorem areEntries_iff (entries : List Char) (base : Intent) {scheme : Option String} :
    AreEntries entries scheme ↔
      ∃ parsed, readFragment entries base = .ok parsed ∧ parsed.scheme = scheme := by
  have start : Parsed.Alike (.ok ⟨base, none, none⟩) (.ok ⟨.empty, none, none⟩) := .reads rfl rfl
  have alike := start.applyAll (Text.split ';' entries)
  rw [AreEntries, readFragment, readFragment]
  generalize Parsed.applyAll ⟨base, none, none⟩ _ = ofBase at alike
  generalize Parsed.applyAll ⟨.empty, none, none⟩ _ = ofEmpty at alike
  cases alike with
  | fails cause => simp
  | reads _ names => simp [names]

/-- The scheme that is read from entries is no longer than they are. -/
theorem within_of_readFragment {base : Intent} (noData : base.data = none)
    (noSelector : base.selector = none) (read : readFragment entries base = .ok parsed) :
    parsed.Within (size entries) := by
  have start : Parsed.Within ⟨base, none, none⟩ (size entries) :=
    ⟨noData, noSelector, by rintro _ ⟨⟩⟩
  apply start.applyAll _ read
  intro entry member
  exact Text.Utf8.size_le_of_infix (Text.infix_of_mem_split member)

end Fragment

end IntentRouting.Intent
