import IntentRouting.Proofs.Intent.Building
import IntentRouting.Proofs.Intent.Entries
import IntentRouting.Proofs.Intent.Flattening

/-!
# What entries carry over

Reading the entries of an intent succeeds exactly if its extras of simple types have names and the
short form of its component is one, and if the same holds of its selector; then the fields are those
that were written (`receive_eq_ok_iff`). An intent that is built with an action, names and a
component that are not degenerate comes back from its entries whole, up to extras that have no
simple type and the part of the data that is not written there.
-/

namespace IntentRouting

namespace Intent

/-- Whether the entries of an intent, without those of its selector, can be read. -/
structure HasReadableFields (intent : Intent) : Prop where
  named : ∀ entry ∈ intent.extras.entries, entry.2.isScalar = true → entry.1 ≠ ""
  component : ∀ component ∈ intent.component, ∃ read, Component.parse component.short = .ok read

/-- The extras that are written, with the values that are read for them. -/
def receivedEntries (entries : List (String × Value)) : List (String × Value) :=
  (entries.filter (·.2.isScalar)).map fun entry =>
    (entry.1, entry.2.received)

def readComponent? (component : Option Component) : Option Component :=
  component.bind fun component => (Component.parse component.short).toOption

def putExtras (intent : Intent) (entries : List (String × Value)) : Intent :=
  entries.foldl (fun intent entry => intent.putExtra entry.1 entry.2) intent

/-- An intent with all fields of another one that its entries set. -/
def completed (base intent : Intent) (assumedAction assumedPackage : Option String) : Intent :=
  { base.overlay intent assumedAction assumedPackage with
    component := (readComponent? intent.component).or base.component
    bounds := intent.bounds.or base.bounds }.putExtras (receivedEntries intent.extras.entries)

/-- An intent with nothing but an action and data. -/
def outline (action : Option String) (data : Option Uri) : Intent := { empty with action, data }

/-- The URI of a scheme alone. -/
def schemeAlone (scheme : Option String) : Option Uri :=
  scheme.map fun scheme => ⟨some scheme, .specific "", none⟩

/-- What is read where a selector was written. -/
def selectorRead (selector : Intent) : Intent :=
  (outline none (schemeAlone selector.scheme)).completed selector none none

namespace Parsed

variable {parsed middle after : Parsed}

theorem receiveExtras_eq_ok_iff (entries : List (String × Value)) :
    parsed.receiveExtras entries = .ok after ↔
      (∀ entry ∈ entries, entry.2.isScalar = true → entry.1 ≠ "") ∧
        after = parsed.update (·.putExtras (receivedEntries entries)) := by
  induction entries generalizing parsed with
  | nil =>
      have same : parsed.update (·.putExtras (receivedEntries [])) = parsed :=
        update_self fun _ => rfl
      rw [same, receiveExtras]
      constructor
      · rintro ⟨⟩
        exact ⟨by simp, rfl⟩
      · rintro ⟨_, rfl⟩
        rfl
  | cons entry entries ih =>
      have scalar := entry.2.isSome_taggedText?
      rw [receiveExtras, receiveExtra, List.forall_mem_cons, ← scalar]
      cases tagged : taggedText? entry.2 with
      | none =>
          rw [tagged] at scalar
          have skipped : receivedEntries (entry :: entries) = receivedEntries entries := by
            simp [receivedEntries, ← scalar]
          simp [Except.bind, ih, skipped]
      | some tag =>
          rw [tagged] at scalar
          have taken : receivedEntries (entry :: entries) =
              (entry.1, entry.2.received) :: receivedEntries entries := by
            simp [receivedEntries, ← scalar]
          have put : (fun intent : Intent => intent.putExtras (receivedEntries (entry :: entries))) =
              (·.putExtras (receivedEntries entries)) ∘ (·.putExtra entry.1 entry.2.received) := by
            rw [taken]
            rfl
          by_cases unnamed : entry.1 = ""
          · simp [Except.bind, unnamed]
          · simp [Except.bind, unnamed, ih, update_update, put]

theorem receiveComponent_eq_ok_iff (component : Option Component) :
    parsed.receiveComponent component = .ok after ↔
      (∀ given ∈ component, ∃ read, Component.parse given.short = .ok read) ∧
        after = parsed.update fun base =>
          { base with component := (readComponent? component).or base.component } := by
  cases component with
  | none =>
      have same : parsed.update (fun base =>
          { base with component := (readComponent? none).or base.component }) = parsed := by
        apply update_self
        rintro ⟨⟩
        rfl
      rw [same]
      simp [receiveComponent, eq_comm]
  | some component =>
      cases read : Component.parse component.short with
      | error cause => simp [receiveComponent, read, Except.map]
      | ok given => simp [receiveComponent, readComponent?, read, Except.map, Except.toOption, eq_comm]

theorem receiveFields_eq_ok_iff {intent : Intent} {scheme assumedAction assumedPackage : Option String}
    (schemed : parsed.receiveScheme scheme = .ok middle) :
    parsed.receiveFields intent scheme assumedAction assumedPackage = .ok after ↔
      intent.HasReadableFields ∧
        after = middle.update (·.completed intent assumedAction assumedPackage) := by
  rw [receiveFields, schemed, Except.bind]
  constructor
  · intro received
    cases component : (middle.update (·.overlay intent assumedAction assumedPackage)).receiveComponent
      intent.component with
    | error cause =>
        rw [component] at received
        cases received
    | ok afterComponent =>
        rw [component, Except.bind, receiveExtras_eq_ok_iff] at received
        rcases (receiveComponent_eq_ok_iff _).1 component with ⟨readable, rfl⟩
        refine ⟨⟨received.1, readable⟩, ?_⟩
        rw [received.2, update_update, update_update, update_update]
        rfl
  · rintro ⟨readable, rfl⟩
    have component (parsed : Parsed) : parsed.receiveComponent intent.component = .ok _ :=
      (receiveComponent_eq_ok_iff intent.component).2 ⟨readable.component, rfl⟩
    rw [component, Except.bind, receiveExtras_eq_ok_iff]
    refine ⟨readable.named, ?_⟩
    rw [update_update, update_update, update_update]
    rfl

theorem receiveScheme_ok (base : Intent) (scheme : Option String) :
    receiveScheme ⟨base, none, none⟩ scheme = .ok ⟨base, none, scheme⟩ := by
  cases scheme with
  | none => rfl
  | some scheme => rfl

theorem receiveScheme_selector_ok {selector : Intent} (intent : Intent) (schemed : Option String)
    (read : ∀ data ∈ selector.data, data.IsRead) :
    receiveScheme ⟨intent, some .empty, schemed⟩ selector.scheme =
      .ok ⟨intent, some (outline none (schemeAlone selector.scheme)), schemed⟩ := by
  cases found : selector.scheme with
  | none => rfl
  | some scheme =>
      rw [Intent.scheme, Option.bind_eq_some_iff] at found
      rcases found with ⟨data, given, ofData⟩
      simp only [receiveScheme, applyScheme, (read data given).parse_scheme ofData, Except.map]
      rfl

theorem receiveSelector_eq_ok_iff (intent : Intent) (schemed : Option String)
    (selector : Option Intent) (read : ∀ other ∈ selector, ∀ data ∈ other.data, data.IsRead) :
    receiveSelector ⟨intent, none, schemed⟩ selector = .ok after ↔
      (∀ other ∈ selector, other.HasReadableFields) ∧
        after = ⟨intent, selector.map selectorRead, schemed⟩ := by
  cases selector with
  | none => simp [receiveSelector, eq_comm]
  | some selector =>
      have schemeRead := receiveScheme_selector_ok intent schemed (read selector rfl)
      rw [receiveSelector, receiveFields_eq_ok_iff schemeRead]
      simp [update, selectorRead]

theorem receive_eq_ok_iff {intent base : Intent} {scheme assumedAction assumedPackage : Option String}
    (read : ∀ other ∈ intent.selector, ∀ data ∈ other.data, data.IsRead) :
    receive ⟨base, none, none⟩ intent scheme assumedAction assumedPackage = .ok after ↔
      intent.HasReadableFields ∧ (∀ other ∈ intent.selector, other.HasReadableFields) ∧
        after = ⟨base.completed intent assumedAction assumedPackage,
          intent.selector.map selectorRead, scheme⟩ := by
  have schemed := receiveScheme_ok base scheme
  rw [receive]
  constructor
  · intro received
    cases fields : receiveFields ⟨base, none, none⟩ intent scheme assumedAction assumedPackage with
    | error cause =>
        rw [fields] at received
        cases received
    | ok middle =>
        rcases (receiveFields_eq_ok_iff schemed).1 fields with ⟨readable, rfl⟩
        rw [fields, Except.bind] at received
        exact ⟨readable, (receiveSelector_eq_ok_iff _ _ _ read).1 received⟩
  · rintro ⟨readable, selector⟩
    rw [(receiveFields_eq_ok_iff schemed).2 ⟨readable, rfl⟩]
    exact (receiveSelector_eq_ok_iff _ _ _ read).2 selector

end Parsed

section Codec

variable {intent : Intent}

/-- What an intent must satisfy for its entries to say everything about it: its action and the
names of its extras are not empty, and its component was made of the class of a package. -/
structure IsRegular (intent : Intent) : Prop where
  action : intent.action ≠ some ""
  extras : ∀ name ∈ intent.extras.keys, name ≠ ""
  component : ∀ component ∈ intent.component, ∃ package className,
    package ≠ "" ∧ '/' ∉ package.toList ∧ component = .of package className

/-- An extra that comes back as it was, if it is not a floating-point number. -/
def SameExtra (entry back : String × Value) : Prop :=
  back.1 = entry.1 ∧ back.2.typeName = entry.2.typeName ∧
    (entry.2.isFloating = false → back.2 = entry.2)

/-- An intent that comes back with the fields that its entries set, its extras aside. -/
structure SameFields (intent back : Intent) : Prop where
  action : back.action = intent.action
  categories : back.categories = intent.categories
  mimeType : back.mimeType = intent.mimeType
  identifier : back.identifier = intent.identifier
  flags : back.flags = intent.flags
  package : back.package = intent.package
  component : back.component = intent.component
  bounds : back.bounds = intent.bounds

/-- An intent that comes back with all that its entries say. -/
structure Carries (intent back : Intent) : Prop extends SameFields intent back where
  extras : List.Forall₂ SameExtra (intent.extras.entries.filter (·.2.isScalar)) back.extras.entries

theorem putExtras_eq (intent : Intent) (entries : List (String × Value)) :
    intent.putExtras entries =
      { intent with
        extras := entries.foldl (fun bundle entry => bundle.insert entry.1 entry.2)
          intent.extras } := by
  induction entries generalizing intent with
  | nil =>
      cases intent
      rfl
  | cons entry entries ih => exact ih (intent.putExtra entry.1 entry.2)

theorem IsRegular.hasReadableFields (regular : intent.IsRegular) : intent.HasReadableFields := by
  constructor
  · intro entry member _
    exact regular.extras entry.1 (List.mem_map_of_mem member)
  · intro component given
    rcases regular.component component given with ⟨package, className, someText, noSlash, rfl⟩
    exact ⟨_, Component.parse_short_of className someText noSlash⟩

theorem IsRegular.readComponent? (regular : intent.IsRegular) :
    Intent.readComponent? intent.component = intent.component := by
  cases given : intent.component with
  | none => rfl
  | some component =>
      rcases regular.component component given with ⟨package, className, someText, noSlash, rfl⟩
      simp [Intent.readComponent?, Component.parse_short_of className someText noSlash, Except.toOption]

theorem forall₂_receivedEntries (entries : List (String × Value)) :
    List.Forall₂ SameExtra (entries.filter (·.2.isScalar)) (receivedEntries entries) := by
  rw [receivedEntries, List.forall₂_map_right_iff, List.forall₂_same]
  intro entry _
  exact ⟨rfl, entry.2.typeName_received, Value.received_of_not_isFloating⟩

theorem keys_receivedEntries_nodup (distinct : intent.extras.Distinct) :
    ((receivedEntries intent.extras.entries).map (·.1)).Nodup := by
  have names : (receivedEntries intent.extras.entries).map (·.1) =
      (intent.extras.entries.filter (·.2.isScalar)).map (·.1) := by
    simp [receivedEntries]
  rw [names]
  exact List.Nodup.sublist (List.filter_sublist.map _) distinct

theorem sameFields_completed (regular : intent.IsRegular) (assumed : Option String)
    (data : Option Uri) :
    intent.SameFields ((outline assumed data).completed intent assumed none) := by
  have action : (if intent.action = assumed then assumed else intent.action.filter (· != "")) =
      intent.action := by
    split
    · rename_i same
      exact same.symm
    · have someText := regular.action
      cases found : intent.action with
      | none => rfl
      | some action =>
          have : action ≠ "" := by
            rintro rfl
            exact someText found
          simp [Option.filter, this]
  have package : (if intent.package = none then none else intent.package.or none) =
      intent.package := by
    cases intent.package <;> rfl
  have flags : (if intent.flags.isEmpty = true then .empty else intent.flags) = intent.flags := by
    split
    · rename_i none
      exact (FlagSet.ext (by simpa using FlagSet.isEmpty_iff.1 none)).symm
    · rfl
  rw [completed, putExtras_eq]
  constructor
  · exact action
  · exact Categories.foldl_insert_names intent.categories
  · exact Option.or_none
  · exact Option.or_none
  · exact flags
  · exact package
  · show (Intent.readComponent? intent.component).or none = intent.component
    rw [regular.readComponent?, Option.or_none]
  · exact Option.or_none

/-- An intent is carried over to one that has only an action and data. -/
theorem carries_completed (regular : intent.IsRegular) (distinct : intent.extras.Distinct)
    (assumed : Option String) (data : Option Uri) :
    intent.Carries ((outline assumed data).completed intent assumed none) := by
  have extras : (receivedEntries intent.extras.entries).foldl
      (fun bundle entry => bundle.insert entry.1 entry.2) ⟨[]⟩ =
        (⟨receivedEntries intent.extras.entries⟩ : Bundle) :=
    Bundle.ofList_of_nodup (keys_receivedEntries_nodup distinct)
  refine ⟨sameFields_completed regular assumed data, ?_⟩
  rw [completed, putExtras_eq]
  show List.Forall₂ SameExtra _ (Bundle.entries
    ((receivedEntries intent.extras.entries).foldl _ ⟨[]⟩))
  rw [extras]
  exact forall₂_receivedEntries intent.extras.entries

theorem finish_of_none {flags : LinkFlags} (acceptsAll : flags.contains LinkFlags.allowUnsafe = true)
    (back : Intent) (scheme : Option String) :
    Parsed.finish ⟨back, none, scheme⟩ flags = back := by
  simp only [Parsed.finish, restricted, if_pos acceptsAll]

theorem finish_of_some {flags : LinkFlags} (acceptsAll : flags.contains LinkFlags.allowUnsafe = true)
    {back : Intent} (noPackage : back.package = none) (other : Intent) (scheme : Option String) :
    Parsed.finish ⟨back, some other, scheme⟩ flags = { back with selector := some other } := by
  simp [Parsed.finish, restricted, if_pos acceptsAll, noPackage]

theorem Carries.withSelector {back : Intent} (carried : intent.Carries back)
    (selector : Option Intent) : intent.Carries { back with selector } :=
  ⟨⟨carried.action, carried.categories, carried.mimeType, carried.identifier, carried.flags,
    carried.package, carried.component, carried.bounds⟩, carried.extras⟩

theorem data_completed (intent base : Intent) (assumedAction assumedPackage : Option String) :
    (base.completed intent assumedAction assumedPackage).data = base.data := by
  rw [completed, putExtras_eq]
  rfl

theorem selector_completed (intent base : Intent) (assumedAction assumedPackage : Option String) :
    (base.completed intent assumedAction assumedPackage).selector = base.selector := by
  rw [completed, putExtras_eq]
  rfl

/-- Entries carry an intent over. They are written for any assumed action, with or without an entry
for a scheme, and read over an intent that has the assumed action; a selector comes back with the
scheme of its data alone. -/
theorem exists_readFragment_carries (built : intent.IsBuilt) (regular : intent.IsRegular)
    (selectors : ∀ other ∈ intent.selector, other.IsRegular ∧ other.selector = none)
    (scheme assumed : Option String) {flags : LinkFlags}
    (acceptsAll : flags.contains LinkFlags.allowUnsafe = true) :
    ∃ parsed,
      readFragment (intent.entriesChars scheme assumed none ++ fragmentEnd) (outline assumed none) =
          .ok parsed ∧
        parsed.scheme = scheme ∧ intent.Carries (parsed.finish flags) ∧
        (parsed.finish flags).data = none ∧
        Option.Rel
          (fun selector back =>
            selector.Carries back ∧ back.data = schemeAlone selector.scheme ∧
              back.selector = selector.selector)
          intent.selector (parsed.finish flags).selector := by
  have sound := built.isSound
  have read : ∀ other ∈ intent.selector, ∀ data ∈ other.data, data.IsRead :=
    fun other given => (sound.selector other given).data
  have written : readFragment (intent.entriesChars scheme assumed none ++ fragmentEnd)
      (outline assumed none) = .ok ⟨(outline assumed none).completed intent assumed none,
        intent.selector.map selectorRead, scheme⟩ := by
    rw [readFragment_entriesChars]
    apply (Parsed.receive_eq_ok_iff read).2
    exact ⟨regular.hasReadableFields,
      fun other given => (selectors other given).1.hasReadableFields, rfl⟩
  have carried := carries_completed regular sound.extras assumed none
  have data := data_completed intent (outline assumed none) assumed none
  have selector := selector_completed intent (outline assumed none) assumed none
  refine ⟨_, written, rfl, ?_⟩
  cases given : intent.selector with
  | none =>
      rw [Option.map_none, finish_of_none acceptsAll, selector]
      exact ⟨carried, data, .none⟩
  | some other =>
      have noPackage : intent.package = none :=
        sound.exclusive.resolve_right (by simp [given])
      rcases selectors other given with ⟨otherRegular, noSelector⟩
      have otherCarried := carries_completed otherRegular (sound.selector other given).extras none
        (schemeAlone other.scheme)
      rw [Option.map_some, finish_of_some acceptsAll (carried.package.trans noPackage)]
      refine ⟨carried.withSelector _, data, .some ⟨otherCarried, ?_, ?_⟩⟩
      · exact data_completed ..
      · exact (selector_completed ..).trans noSelector.symm

end Codec

end Intent

namespace Sharing

open Intent

def pages : Uri := ⟨some "content", .hierarchical (some "pages") "" none, none⟩

/-- What is chosen from. -/
def picker : Intent := { ofAction "android.intent.action.PICK" with data := some pages }

/-- A request with separators in its identifier and in the name and value of an extra, and with an
extra that no link writes. -/
def sharing : Intent :=
  { ofAction "android.intent.action.SEND" with
    identifier := some "50%;=#"
    extras := ⟨[("a;b=c", .string "SEL;end"), ("count", .int (-5)), ("all", .strings ["x"])]⟩
    selector := some picker }

theorem picker_isBuilt : picker.IsBuilt := by
  have action := IsBuilt.empty.changed (.action (some "android.intent.action.PICK")) rfl rfl rfl
  refine .change (.data (some pages)) action (by simp [Change.intents]) ?_ rfl
  intro uri member
  rcases List.mem_singleton.1 member with rfl
  exact ⟨"content://pages", rfl⟩

theorem sharing_isBuilt : sharing.IsBuilt := by
  have action := IsBuilt.empty.changed (.action (some "android.intent.action.SEND")) rfl rfl rfl
  have identifier := action.changed (.identifier (some "50%;=#")) rfl rfl rfl
  have text := identifier.changed (.putExtra "a;b=c" (.string "SEL;end")) rfl rfl rfl
  have count := text.changed (.putExtra "count" (.int (-5))) rfl rfl rfl
  have all := count.changed (.putExtra "all" (.strings ["x"])) rfl rfl rfl
  refine .change (.selector (some picker)) all ?_ (by simp [Change.uris]) rfl
  intro other member
  rcases List.mem_singleton.1 member with rfl
  exact picker_isBuilt

theorem picker_isRegular : picker.IsRegular :=
  ⟨by decide, by simp [picker, ofAction, Intent.empty, Bundle.keys],
    by simp [picker, ofAction, Intent.empty]⟩

theorem sharing_isRegular : sharing.IsRegular :=
  ⟨by decide, by simp [sharing, Bundle.keys], by simp [sharing, ofAction, Intent.empty]⟩

theorem sharing_comes_back :
    sharing.IsBuilt ∧ sharing.IsRegular ∧ picker.IsRegular ∧ picker.selector = none ∧
      ∃ parsed,
        readFragment (sharing.entriesChars none (some Action.view) none ++ fragmentEnd)
            (outline (some Action.view) none) = .ok parsed ∧
          parsed.scheme = none ∧ sharing.Carries (parsed.finish LinkFlags.allowUnsafe) ∧
          (parsed.finish LinkFlags.allowUnsafe).data = none ∧
          Option.Rel
            (fun selector back =>
              selector.Carries back ∧ back.data = schemeAlone selector.scheme ∧
                back.selector = selector.selector)
            (some picker) (parsed.finish LinkFlags.allowUnsafe).selector := by
  refine ⟨sharing_isBuilt, sharing_isRegular, picker_isRegular, rfl, ?_⟩
  have selectors : ∀ other ∈ sharing.selector, other.IsRegular ∧ other.selector = none := by
    rintro other ⟨⟩
    exact ⟨picker_isRegular, rfl⟩
  exact exists_readFragment_carries sharing_isBuilt sharing_isRegular selectors none
    (some Action.view) (by decide)

end Sharing

end IntentRouting
