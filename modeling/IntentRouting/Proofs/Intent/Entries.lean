import IntentRouting.Intent.Link.Reader
import IntentRouting.Proofs.Number.Digits
import IntentRouting.Proofs.Text.Cutting
import IntentRouting.Proofs.Uri.Escapes

/-!
# What the entries of a link say

Writing the entries of an intent and reading them again is the same as handing its fields over one
after the other, without any text in between (`readFragment_entriesChars`). Only three things can go
wrong on the way, and each of them is a step of the handing over: a scheme that makes no URI, a
component whose short form is not one, and a name of an extra that is empty.

The entries are read from the front, so every part of them is described by what it makes of all
that was read before it, whatever follows (`Parsed.Reads`).
-/

namespace IntentRouting

namespace Value

/-- Whether a value is of a type that links write. -/
def isScalar : Value → Bool
  | .blob _ | .strings _ | .uri _ | .intent _ | .bundle _ => false
  | _ => true

def isFloating : Value → Bool
  | .float _ | .double _ => true
  | _ => false

/-- The value that is read where some value was written. -/
def received : Value → Value
  | .double value => .double ((Binary.parse? .double (value.plainText .double)).getD .nan)
  | .float value => .float ((Binary.parse? .single (value.plainText .single)).getD .nan)
  | value => value

theorem isSome_taggedText? (value : Value) :
    (Intent.taggedText? value).isSome = value.isScalar := by
  cases value <;> rfl

theorem typeName_received (value : Value) : value.received.typeName = value.typeName := by
  cases value <;> rfl

theorem received_of_not_isFloating {value : Value} (exact : value.isFloating = false) :
    value.received = value := by
  cases value with
  | float _ => cases exact
  | double _ => cases exact
  | _ => rfl

end Value

namespace Intent

/-- The fields that entries set without looking at them, over those of another intent. -/
def overlay (base intent : Intent) (assumedAction assumedPackage : Option String) : Intent :=
  { base with
    action :=
      if intent.action = assumedAction then base.action else intent.action.filter (· != "")
    categories := intent.categories.names.foldl .insert base.categories
    mimeType := intent.mimeType.or base.mimeType
    identifier := intent.identifier.or base.identifier
    flags := if intent.flags.isEmpty then base.flags else intent.flags
    package :=
      if intent.package = assumedPackage then base.package else intent.package.or base.package }

namespace Parsed

def receiveScheme (parsed : Parsed) : Option String → Except Malformed Parsed
  | none => .ok parsed
  | some scheme => parsed.applyScheme scheme

def receiveComponent (parsed : Parsed) : Option Component → Except Malformed Parsed
  | none => .ok parsed
  | some component =>
      (Component.parse component.short).map fun component =>
        parsed.update fun intent => { intent with component := some component }

def receiveExtra (parsed : Parsed) (entry : String × Value) : Except Malformed Parsed :=
  match taggedText? entry.2 with
  | none => .ok parsed
  | some (tag, _) =>
      if entry.1 = "" then .error (.fragmentKey (String.ofList [tag, '.']))
      else .ok (parsed.update (·.putExtra entry.1 entry.2.received))

def receiveExtras (parsed : Parsed) : List (String × Value) → Except Malformed Parsed
  | [] => .ok parsed
  | entry :: entries => (parsed.receiveExtra entry).bind (·.receiveExtras entries)

/-- Hands the fields of an intent over to the one that is currently described. -/
def receiveFields (parsed : Parsed) (intent : Intent)
    (scheme assumedAction assumedPackage : Option String) : Except Malformed Parsed :=
  (parsed.receiveScheme scheme).bind fun parsed =>
    ((parsed.update (·.overlay intent assumedAction assumedPackage)).receiveComponent
      intent.component).bind fun parsed =>
        (parsed.update fun base => { base with bounds := intent.bounds.or base.bounds }).receiveExtras
          intent.extras.entries

def receiveSelector (parsed : Parsed) : Option Intent → Except Malformed Parsed
  | none => .ok parsed
  | some selector =>
      { parsed with selector := some .empty }.receiveFields selector selector.scheme none none

/-- Hands over the fields of an intent and of its selector. -/
def receive (parsed : Parsed) (intent : Intent)
    (scheme assumedAction assumedPackage : Option String) : Except Malformed Parsed :=
  (parsed.receiveFields intent scheme assumedAction assumedPackage).bind
    (·.receiveSelector intent.selector)

/-- What reading some characters makes of what was read before them, whatever follows. -/
def Reads (before : Parsed) (characters : List Char) (outcome : Except Malformed Parsed) : Prop :=
  ∀ rest, before.applyAll (Text.split ';' (characters ++ rest)) =
    outcome.bind fun after => after.applyAll (Text.split ';' rest)

section Reads

variable {before : Parsed} {left right entry key : List Char} {outcome : Except Malformed Parsed}
  {next : Parsed → Except Malformed Parsed}

theorem reads_nil : before.Reads [] (.ok before) := fun _ => rfl

theorem Reads.append (first : before.Reads left outcome)
    (second : ∀ middle : Parsed, middle.Reads right (next middle)) :
    before.Reads (left ++ right) (outcome.bind next) := by
  intro rest
  rw [List.append_assoc, first]
  cases outcome with
  | error cause => rfl
  | ok middle => exact second middle rest

theorem reads_entry (whole : ';' ∉ entry) (assigns : '=' ∈ entry) :
    before.Reads (entry ++ [';']) (before.applyText entry) := by
  have notEnd : entry ≠ fragmentEnd := by
    rintro rfl
    exact absurd assigns (by decide)
  have notSelector : entry ≠ "SEL".toList := by
    rintro rfl
    exact absurd assigns (by decide)
  intro rest
  have parts : Text.split ';' (entry ++ [';'] ++ rest) = entry :: Text.split ';' rest := by
    rw [List.append_assoc, List.singleton_append, Text.split_append_separator,
      Text.split_of_not_mem whole, List.singleton_append]
  rw [parts, applyAll, if_neg notEnd, if_neg notSelector]
  cases before.applyText entry with
  | error cause => rfl
  | ok after => rfl

theorem reads_keyed {raw : List Char} {value : String} (plainKey : '=' ∉ key) (wholeKey : ';' ∉ key)
    (whole : ';' ∉ raw) (decoded : Uri.decode (String.ofList raw) = .ok value) :
    before.Reads (key ++ '=' :: raw ++ [';']) (before.apply key value) := by
  have read : before.applyText (key ++ '=' :: raw) = before.apply key value := by
    simp only [applyText, Text.cut?_append plainKey, decoded]
  rw [← read]
  apply reads_entry
  · simp [wholeKey, whole]
  · simp

theorem reads_entryChars (plainKey : '=' ∉ key) (wholeKey : ';' ∉ key) (value : String) :
    before.Reads (entryChars key value) (before.apply key value) := by
  apply reads_keyed plainKey wholeKey (Uri.notMem_encodeChars rfl (by decide))
  rw [Uri.decode_encodeChars, String.ofList_toList]

theorem reads_selectorStart :
    before.Reads selectorStart (.ok { before with selector := some .empty }) := by
  intro rest
  have absent : ';' ∉ "SEL".toList := by decide
  have characters : selectorStart ++ rest = "SEL".toList ++ ';' :: rest := by
    simp [selectorStart]
  have notEnd : "SEL".toList ≠ fragmentEnd := by decide
  rw [characters, Text.split_append_separator, Text.split_of_not_mem absent,
    List.singleton_append, applyAll, if_neg notEnd, if_pos rfl]
  rfl

end Reads

section Fields

variable {parsed before : Parsed}

theorem update_update (first second : Intent → Intent) :
    (parsed.update first).update second = parsed.update (second ∘ first) := by
  rcases parsed with ⟨intent, selector, scheme⟩
  cases selector with
  | none => rfl
  | some selector => rfl

theorem update_self {change : Intent → Intent} (same : ∀ intent, change intent = intent) :
    parsed.update change = parsed := by
  rcases parsed with ⟨intent, selector, scheme⟩
  cases selector with
  | none => simp [update, same]
  | some selector => simp [update, same]

theorem reads_nothing {change : Intent → Intent} (same : ∀ intent, change intent = intent) :
    before.Reads [] (.ok (before.update change)) := by
  rw [update_self same]
  exact reads_nil

theorem Reads.update {left right : List Char} {first second : Intent → Intent}
    (read : before.Reads left (.ok (before.update first)))
    (later : ∀ middle : Parsed, middle.Reads right (.ok (middle.update second))) :
    before.Reads (left ++ right) (.ok (before.update (second ∘ first))) := by
  have both := read.append later
  simpa only [Except.bind, update_update] using both

theorem reads_scheme (scheme : Option String) :
    before.Reads (optionalEntry "scheme".toList scheme) (before.receiveScheme scheme) := by
  cases scheme with
  | none => exact reads_nil
  | some scheme => exact reads_entryChars (by decide) (by decide) scheme

theorem reads_action (action assumed : Option String) :
    before.Reads (actionChars action assumed)
      (.ok (before.update fun base =>
        { base with
          action := if action = assumed then base.action else action.filter (· != "") })) := by
  by_cases same : action = assumed
  · have nothing : actionChars action assumed = [] := by
      subst same
      cases action with
      | none => rfl
      | some action => simp [actionChars]
    rw [nothing]
    apply reads_nothing
    rintro ⟨⟩
    simp [same]
  · have written : actionChars action assumed =
        entryChars "action".toList (action.getD "") := by
      cases action with
      | none =>
          cases assumed with
          | none => exact absurd rfl same
          | some assumed => rfl
      | some action => simp [actionChars, same]
    have value : (if (action.getD "").isEmpty then none else some (action.getD "")) =
        action.filter (· != "") := by
      cases action with
      | none => rfl
      | some action => by_cases empty : action = "" <;> simp [Option.filter, empty]
    have read : before.Reads (entryChars "action".toList (action.getD ""))
        (before.apply "action".toList (action.getD "")) :=
      reads_entryChars (by decide) (by decide) _
    rw [apply, if_pos rfl, value] at read
    simpa only [written, if_neg same] using read

theorem reads_type (mimeType : Option String) :
    before.Reads (optionalEntry "type".toList mimeType)
      (.ok (before.update fun base => { base with mimeType := mimeType.or base.mimeType })) := by
  cases mimeType with
  | none =>
      apply reads_nothing
      rintro ⟨⟩
      rfl
  | some mimeType => exact reads_entryChars (by decide) (by decide) mimeType

theorem reads_identifier (identifier : Option String) :
    before.Reads (optionalEntry "identifier".toList identifier)
      (.ok (before.update fun base =>
        { base with identifier := identifier.or base.identifier })) := by
  cases identifier with
  | none =>
      apply reads_nothing
      rintro ⟨⟩
      rfl
  | some identifier => exact reads_entryChars (by decide) (by decide) identifier

theorem reads_categories (names : List String) :
    before.Reads (names.flatMap (entryChars "category".toList))
      (.ok (before.update fun base =>
        { base with categories := names.foldl .insert base.categories })) := by
  induction names generalizing before with
  | nil =>
      apply reads_nothing
      rintro ⟨⟩
      rfl
  | cons name names ih =>
      have read : before.Reads (entryChars "category".toList name)
          (.ok (before.update (·.addCategory name))) :=
        reads_entryChars (by decide) (by decide) name
      exact read.update fun _ => ih

theorem readFlags?_toDigits (flags : IntentFlags) :
    readFlags? ('0' :: 'x' :: Nat.toDigits 16 flags.toNat) = some flags := by
  have bound : flags.toNat < 2 ^ 32 := flags.bits.isLt
  have high : flagBounds.highest = 2 ^ 32 - 1 := rfl
  have within : (flags.toNat : Int) ≤ flagBounds.highest := by
    rw [high]
    omega
  have contains : flagBounds.Contains (flags.toNat : Int) := ⟨Int.natCast_nonneg _, within⟩
  have value : BitVec.ofNat 32 flags.toNat = flags.bits := by
    simp [FlagSet.toNat]
  rw [readFlags?, Integer.read_toDigits (.inr rfl) within]
  simp [contains, value]

theorem reads_flags (flags : IntentFlags) :
    before.Reads (flagChars flags)
      (.ok (before.update fun base =>
        { base with flags := if flags.isEmpty then base.flags else flags })) := by
  by_cases empty : flags.isEmpty = true
  · rw [flagChars, if_pos empty]
    apply reads_nothing
    rintro ⟨⟩
    simp [empty]
  · have absent (c : Char) (decimal : Integer.digitValue? 10 c = none)
        (hexadecimal : Integer.digitValue? 16 c = none) (mark : c ≠ '0' ∧ c ≠ 'x') :
        c ∉ '0' :: 'x' :: Nat.toDigits 16 flags.toNat := by
      have digits : c ∉ Nat.toDigits 16 flags.toNat :=
        Integer.notMem_toDigits (.inr rfl) decimal hexadecimal
      simp [mark, digits]
    have decoded : Uri.decode (String.ofList ('0' :: 'x' :: Nat.toDigits 16 flags.toNat)) =
        .ok (String.ofList ('0' :: 'x' :: Nat.toDigits 16 flags.toNat)) :=
      Uri.decode_of_notMem (absent '%' (by decide) (by decide) (by decide))
    have read : before.Reads ("launchFlags".toList ++ '=' ::
        ('0' :: 'x' :: Nat.toDigits 16 flags.toNat) ++ [';']) _ :=
      reads_keyed (by decide) (by decide) (absent ';' (by decide) (by decide) (by decide)) decoded
    have applied : before.apply "launchFlags".toList
        (String.ofList ('0' :: 'x' :: Nat.toDigits 16 flags.toNat)) =
          .ok (before.update fun base => { base with flags }) := by
      simp [apply, readFlags?_toDigits]
    rw [applied] at read
    simpa [flagChars, empty] using read

theorem reads_package (package assumed : Option String) :
    before.Reads (packageChars package assumed)
      (.ok (before.update fun base =>
        { base with
          package := if package = assumed then base.package else package.or base.package })) := by
  by_cases same : package = assumed
  · rw [packageChars, if_pos same]
    apply reads_nothing
    rintro ⟨⟩
    simp [same]
  · simp only [packageChars, if_neg same]
    cases package with
    | none =>
        apply reads_nothing
        rintro ⟨⟩
        rfl
    | some package => exact reads_entryChars (by decide) (by decide) package

theorem cut_short (component : Component) : ∃ package className,
    component.short.toList = package ++ '/' :: className ∧
      Text.cut '/' component.short.toList = (package, some className) := by
  have slash : '/' ∈ component.short.toList := by
    rw [Component.short]
    split
    · simp
    · simp [Component.flat]
  rcases Text.cut_cases '/' component.short.toList with ⟨absent, _⟩ | ⟨package, className, _, cut⟩
  · exact absurd slash absent
  · exact ⟨package, className, cut⟩

theorem reads_component (component : Option Component) :
    before.Reads ((component.map componentChars).getD []) (before.receiveComponent component) := by
  cases component with
  | none => exact reads_nil
  | some component =>
      rcases cut_short component with ⟨package, className, whole, cut⟩
      have absent : ';' ∉ Uri.encodeChars package ++ '/' :: Uri.encodeChars className := by
        have inPackage : ';' ∉ Uri.encodeChars package := Uri.notMem_encodeChars rfl (by decide)
        have inClass : ';' ∉ Uri.encodeChars className := Uri.notMem_encodeChars rfl (by decide)
        simp [inPackage, inClass]
      have decoded : Uri.decode (String.ofList
          (Uri.encodeChars package ++ '/' :: Uri.encodeChars className)) = .ok component.short := by
        have className' := Uri.decodeBytes_encodeChars className []
        rw [List.append_nil] at className'
        rw [← String.ofList_toList (s := component.short), whole]
        apply Uri.decode_of_decodeBytes
        rw [Uri.decodeBytes_encodeChars, Uri.decodeBytes_cons (by decide), className']
        simp [Text.Utf8.encode, Uri.decodeBytes]
      have read : before.Reads ("component".toList ++ '=' ::
          (Uri.encodeChars package ++ '/' :: Uri.encodeChars className) ++ [';'])
          (before.apply "component".toList component.short) :=
        reads_keyed (by decide) (by decide) absent decoded
      have applied : before.apply "component".toList component.short =
          before.receiveComponent (some component) := by
        simp [apply, receiveComponent]
      have written : componentChars component = "component".toList ++ '=' ::
          (Uri.encodeChars package ++ '/' :: Uri.encodeChars className) ++ [';'] := by
        have key : "component=".toList = "component".toList ++ ['='] := by decide
        unfold componentChars
        simp only [cut, key, Option.getD_some, List.append_assoc, List.cons_append, List.nil_append]
      rw [Option.map_some, Option.getD_some, written, ← applied]
      exact read

theorem reads_bounds (bounds : Option Bounds) :
    before.Reads (optionalEntry "sourceBounds".toList (bounds.map Bounds.text))
      (.ok (before.update fun base => { base with bounds := bounds.or base.bounds })) := by
  cases bounds with
  | none =>
      apply reads_nothing
      rintro ⟨⟩
      rfl
  | some bounds =>
      have read : before.Reads (entryChars "sourceBounds".toList bounds.text) _ :=
        reads_entryChars (by decide) (by decide) bounds.text
      have applied : before.apply "sourceBounds".toList bounds.text =
          .ok (before.update fun base => { base with bounds := some bounds }) := by
        simp [apply, Bounds.parse_text, Except.map]
      rwa [applied] at read

theorem readTagged?_taggedText? {value : Value} {tag : Char} {text : String}
    (tagged : taggedText? value = some (tag, text)) :
    readTagged? tag text = some (some value.received) ∧ tag.toNat < 128 ∧ tag ≠ ';' ∧ tag ≠ '=' := by
  cases value with
  | bool value =>
      cases tagged
      cases value with
      | true => exact ⟨rfl, by decide⟩
      | false => exact ⟨rfl, by decide⟩
  | byte value =>
      cases tagged
      have parsed : Integer.parse? byteBounds (Integer.text value.toInt) = some value.toInt :=
        Integer.parse?_text ⟨value.le_toInt, Int.le_sub_one_of_lt value.toInt_lt⟩
      refine ⟨?_, by decide⟩
      simp [readTagged?, Value.received, parsed]
  | short value =>
      cases tagged
      have parsed : Integer.parse? shortBounds (Integer.text value.toInt) = some value.toInt :=
        Integer.parse?_text ⟨value.le_toInt, Int.le_sub_one_of_lt value.toInt_lt⟩
      refine ⟨?_, by decide⟩
      simp [readTagged?, Value.received, parsed]
  | char value =>
      cases tagged
      refine ⟨?_, by decide⟩
      simp [readTagged?, Value.received]
  | int value =>
      cases tagged
      have parsed : Integer.parse? intBounds (Integer.text value.toInt) = some value.toInt :=
        Integer.parse?_text ⟨value.le_toInt, Int.le_sub_one_of_lt value.toInt_lt⟩
      refine ⟨?_, by decide⟩
      simp [readTagged?, Value.received, parsed]
  | long value =>
      cases tagged
      have parsed : Integer.parse? longBounds (Integer.text value.toInt) = some value.toInt :=
        Integer.parse?_text ⟨value.le_toInt, Int.le_sub_one_of_lt value.toInt_lt⟩
      refine ⟨?_, by decide⟩
      simp [readTagged?, Value.received, parsed]
  | float value =>
      cases tagged
      refine ⟨?_, by decide⟩
      rcases Option.isSome_iff_exists.1 (Binary.isSome_parse?_plainText .single value) with
        ⟨read, parsed⟩
      simp [readTagged?, Value.received, parsed]
  | double value =>
      cases tagged
      refine ⟨?_, by decide⟩
      rcases Option.isSome_iff_exists.1 (Binary.isSome_parse?_plainText .double value) with
        ⟨read, parsed⟩
      simp [readTagged?, Value.received, parsed]
  | string value =>
      cases tagged
      exact ⟨rfl, by decide⟩
  | blob value => cases tagged
  | strings value => cases tagged
  | uri value => cases tagged
  | intent value => cases tagged
  | bundle value => cases tagged

theorem apply_dotted (tag : Char) (name : List Char) (value : String) :
    before.apply (tag :: '.' :: name) value = before.applyOther (tag :: '.' :: name) value := by
  simp [apply]

theorem reads_extra (entry : String × Value) :
    before.Reads (extraChars entry) (before.receiveExtra entry) := by
  rcases entry with ⟨name, value⟩
  cases tagged : taggedText? value with
  | none =>
      simp only [extraChars, receiveExtra, tagged]
      exact reads_nil
  | some tagText =>
      rcases tagText with ⟨tag, text⟩
      rcases readTagged?_taggedText? tagged with ⟨read, ascii, notSemicolon, notEquals⟩
      have plainKey : '=' ∉ tag :: '.' :: Uri.encodeChars name.toList := by
        have plainName : '=' ∉ Uri.encodeChars name.toList :=
          Uri.notMem_encodeChars rfl (by decide)
        simp [Ne.symm notEquals, plainName]
      have wholeKey : ';' ∉ tag :: '.' :: Uri.encodeChars name.toList := by
        have wholeName : ';' ∉ Uri.encodeChars name.toList :=
          Uri.notMem_encodeChars rfl (by decide)
        simp [Ne.symm notSemicolon, wholeName]
      have applied : before.apply (tag :: '.' :: Uri.encodeChars name.toList) text =
          before.receiveExtra (name, value) := by
        have decoded := Uri.decode_encodeChars name.toList
        simp only [apply_dotted, receiveExtra, tagged]
        cases written : Uri.encodeChars name.toList with
        | nil =>
            have empty : name = "" := by
              simpa using written
            rw [if_pos empty]
            rfl
        | cons first rest =>
            have someName : name ≠ "" := by
              rintro rfl
              cases written
            rw [written, String.ofList_toList] at decoded
            simp only [applyOther, ascii, applyExtra, decoded, read, if_neg someName, if_true]
      rw [← applied]
      simp only [extraChars, tagged]
      exact reads_entryChars plainKey wholeKey text

theorem reads_extras (entries : List (String × Value)) :
    before.Reads (entries.flatMap extraChars) (before.receiveExtras entries) := by
  induction entries generalizing before with
  | nil => exact reads_nil
  | cons entry entries ih => exact (reads_extra entry).append fun _ => ih

theorem reads_overlay (intent : Intent) (assumedAction assumedPackage : Option String) :
    before.Reads
      (actionChars intent.action assumedAction ++
        intent.categories.names.flatMap (entryChars "category".toList) ++
        optionalEntry "type".toList intent.mimeType ++
        optionalEntry "identifier".toList intent.identifier ++
        flagChars intent.flags ++
        packageChars intent.package assumedPackage)
      (.ok (before.update (·.overlay intent assumedAction assumedPackage))) := by
  have action : before.Reads _ _ := reads_action intent.action assumedAction
  have categories := action.update fun _ => reads_categories intent.categories.names
  have mimeType := categories.update fun _ => reads_type intent.mimeType
  have identifier := mimeType.update fun _ => reads_identifier intent.identifier
  have flags := identifier.update fun _ => reads_flags intent.flags
  exact flags.update fun _ => reads_package intent.package assumedPackage

theorem reads_fieldChars (intent : Intent) (scheme assumedAction assumedPackage : Option String) :
    before.Reads (intent.fieldChars scheme assumedAction assumedPackage)
      (before.receiveFields intent scheme assumedAction assumedPackage) := by
  have first : before.Reads _ _ := reads_scheme scheme
  have plain := first.append fun _ => reads_overlay intent assumedAction assumedPackage
  have component := plain.append fun _ => reads_component intent.component
  have bounds := component.append fun _ => reads_bounds intent.bounds
  have extras := bounds.append fun _ => reads_extras intent.extras.entries
  convert extras using 1
  · simp only [fieldChars, List.append_assoc]
  · rw [receiveFields]
    cases before.receiveScheme scheme with
    | error cause => rfl
    | ok parsed =>
        simp only [Except.bind]
        cases (parsed.update (·.overlay intent assumedAction assumedPackage)).receiveComponent
          intent.component with
        | error cause => rfl
        | ok parsed => rfl

theorem reads_selector (selector : Option Intent) :
    before.Reads
      (match selector with
        | none => []
        | some selector => selectorStart ++ selector.fieldChars selector.scheme none none)
      (before.receiveSelector selector) := by
  cases selector with
  | none => exact reads_nil
  | some selector =>
      exact reads_selectorStart.append fun middle =>
        reads_fieldChars selector selector.scheme none none

theorem reads_entriesChars (intent : Intent)
    (scheme assumedAction assumedPackage : Option String) :
    before.Reads (intent.entriesChars scheme assumedAction assumedPackage)
      (before.receive intent scheme assumedAction assumedPackage) :=
  (reads_fieldChars intent scheme assumedAction assumedPackage).append fun _ =>
    reads_selector intent.selector

end Fields

end Parsed

/-- Reading what was written hands the fields over. -/
theorem readFragment_entriesChars (intent base : Intent)
    (scheme assumedAction assumedPackage : Option String) :
    readFragment (intent.entriesChars scheme assumedAction assumedPackage ++ fragmentEnd) base =
      Parsed.receive ⟨base, none, none⟩ intent scheme assumedAction assumedPackage := by
  have last : Text.split ';' fragmentEnd = [fragmentEnd] := rfl
  rw [readFragment, Parsed.reads_entriesChars intent scheme assumedAction assumedPackage, last]
  cases Parsed.receive ⟨base, none, none⟩ intent scheme assumedAction assumedPackage with
  | error cause => rfl
  | ok parsed => simp [Except.bind, Parsed.applyAll]

end Intent

end IntentRouting
