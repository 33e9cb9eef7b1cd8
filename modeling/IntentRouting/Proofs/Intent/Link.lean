import IntentRouting.Proofs.Intent.Codec

/-!
# The two parts of a link

A link is a head, and behind it a fragment of entries unless the fragment is left out. No entry
holds a number sign, so the reader finds the fragment that was written, however often `#Intent;`
stands in the head. Where the fragment is left out, the reader may find one in the head instead. It
then reads data that is shorter than the head by more than `#Intent;`.
-/

namespace IntentRouting.Intent

variable {intent back : Intent} {flags : LinkFlags} {head entries characters : List Char}

section Shape

/-- What stands in front of the fragment. -/
def linkHead (intent : Intent) (flags : LinkFlags) : List Char :=
  if flags.contains LinkFlags.appScheme then
    appPrefix ++ "//".toList ++ (intent.package.getD "").toList ++ segmentChars intent.data
  else if flags.contains LinkFlags.intentScheme then intent.schemelessChars
  else intent.dataChars

/-- The scheme that has an entry of its own. -/
def linkScheme (intent : Intent) (flags : LinkFlags) : Option String :=
  if flags.contains LinkFlags.appScheme then none
  else if flags.contains LinkFlags.intentScheme then intent.scheme
  else none

/-- The action that the reader assumes. -/
def linkAction (intent : Intent) (flags : LinkFlags) : String :=
  if flags.contains LinkFlags.appScheme && intent.data.isNone then Action.main else Action.view

/-- The package that the head names. -/
def linkPackage (intent : Intent) (flags : LinkFlags) : Option String :=
  if flags.contains LinkFlags.appScheme then intent.package else none

def linkEntries (intent : Intent) (flags : LinkFlags) : List Char :=
  intent.entriesChars (intent.linkScheme flags) (some (intent.linkAction flags))
    (intent.linkPackage flags)

theorem toLink_eq {text : String} (written : intent.toLink flags = .ok text) :
    text = String.ofList (intent.linkHead flags ++
      fragmentChars (intent.linkHead flags) (intent.linkEntries flags)) := by
  rw [toLink] at written
  split at written
  · rename_i app
    cases package : intent.package with
    | none =>
        rw [package] at written
        cases written
    | some name =>
        rw [package] at written
        cases written
        simp only [appSchemeChars, linkHead, linkEntries, linkScheme, linkAction, linkPackage, app,
          package, if_true, Option.getD_some, Bool.true_and]
        cases intent.data with
        | none => rfl
        | some data => rfl
  · rename_i notApp
    split at written
    · rename_i scheme
      cases written
      simp only [linkHead, linkEntries, linkScheme, linkAction, linkPackage, notApp, scheme]
      rfl
    · rename_i plain
      cases written
      simp only [linkHead, linkEntries, linkScheme, linkAction, linkPackage, notApp, plain]
      rfl

/-- Whether a link has no fragment. -/
def OmitsFragment (intent : Intent) (flags : LinkFlags) : Prop :=
  intent.linkEntries flags = [] ∧ intent.linkHead flags ≠ [] ∧ intent.linkHead flags ≠ intentPrefix

instance (intent : Intent) (flags : LinkFlags) : Decidable (intent.OmitsFragment flags) :=
  inferInstanceAs (Decidable (_ ∧ _))

theorem toLink_cases {text : String} (written : intent.toLink flags = .ok text) :
    intent.OmitsFragment flags ∧ text.toList = intent.linkHead flags ∨
      ¬intent.OmitsFragment flags ∧ text.toList = intent.linkHead flags ++
        (fragmentStart ++ (intent.linkEntries flags ++ fragmentEnd)) := by
  have omits_iff : (intent.linkEntries flags).isEmpty && !(intent.linkHead flags).isEmpty &&
      intent.linkHead flags != intentPrefix ↔ intent.OmitsFragment flags := by
    simp [OmitsFragment, and_assoc]
  rw [toLink_eq written, String.toList_ofList, fragmentChars]
  by_cases omits : intent.OmitsFragment flags
  · rw [if_pos (omits_iff.2 omits), List.append_nil]
    exact .inl ⟨omits, rfl⟩
  · rw [if_neg (mt omits_iff.1 omits), List.append_assoc]
    exact .inr ⟨omits, rfl⟩

end Shape

section NumberSigns

theorem hash_notMem_entryChars {key : List Char} (plainKey : '#' ∉ key) (value : String) :
    '#' ∉ entryChars key value := by
  have plainValue : '#' ∉ Uri.encodeChars value.toList := Uri.notMem_encodeChars rfl (by decide)
  simp [entryChars, plainKey, plainValue]

theorem hash_notMem_optionalEntry {key : List Char} (plainKey : '#' ∉ key) (value : Option String) :
    '#' ∉ optionalEntry key value := by
  cases value with
  | none => simp [optionalEntry]
  | some value => exact hash_notMem_entryChars plainKey value

theorem hash_notMem_extraChars (entry : String × Value) : '#' ∉ extraChars entry := by
  have plainName : '#' ∉ Uri.encodeChars entry.1.toList := Uri.notMem_encodeChars rfl (by decide)
  rw [extraChars]
  cases tagged : taggedText? entry.2 with
  | none => simp
  | some tagText =>
      rcases tagText with ⟨tag, text⟩
      have plainTag : tag ≠ '#' := by
        rintro rfl
        have read := (Parsed.readTagged?_taggedText? tagged).1
        cases read
      apply hash_notMem_entryChars
      simp [Ne.symm plainTag, plainName]

theorem hash_notMem_actionChars (action assumed : Option String) :
    '#' ∉ actionChars action assumed := by
  have plain (value : String) : '#' ∉ entryChars "action".toList value :=
    hash_notMem_entryChars (by decide) value
  cases action with
  | none =>
      rw [actionChars]
      split
      · exact plain _
      · simp
  | some action =>
      rw [actionChars]
      split
      · simp
      · exact plain _

theorem hash_notMem_flagChars (flags : IntentFlags) : '#' ∉ flagChars flags := by
  have digits : '#' ∉ Nat.toDigits 16 flags.toNat :=
    Integer.notMem_toDigits (.inr rfl) (by decide) (by decide)
  have key : '#' ∉ "launchFlags=0x".toList := by decide
  rw [flagChars]
  split
  · simp
  · simp only [List.mem_append, key, digits, List.mem_singleton, false_or]
    decide

theorem hash_notMem_packageChars (package assumed : Option String) :
    '#' ∉ packageChars package assumed := by
  rw [packageChars]
  split
  · simp
  · exact hash_notMem_optionalEntry (by decide) package

theorem hash_notMem_componentChars (component : Component) : '#' ∉ componentChars component := by
  have plain (characters : List Char) : '#' ∉ Uri.encodeChars characters :=
    Uri.notMem_encodeChars rfl (by decide)
  have key : '#' ∉ "component=".toList := by decide
  unfold componentChars
  simp only [List.mem_append, List.mem_cons, key, plain, List.not_mem_nil, or_false, false_or]
  decide

theorem hash_notMem_fieldChars (intent : Intent)
    (scheme assumedAction assumedPackage : Option String) :
    '#' ∉ intent.fieldChars scheme assumedAction assumedPackage := by
  have categories : '#' ∉ intent.categories.names.flatMap (entryChars "category".toList) := by
    rw [List.mem_flatMap]
    rintro ⟨name, _, member⟩
    exact hash_notMem_entryChars (by decide) name member
  have component : '#' ∉ (intent.component.map componentChars).getD [] := by
    cases intent.component with
    | none => simp
    | some component => exact hash_notMem_componentChars component
  have extras : '#' ∉ intent.extras.entries.flatMap extraChars := by
    rw [List.mem_flatMap]
    rintro ⟨entry, _, member⟩
    exact hash_notMem_extraChars entry member
  have optional (key : String) (plainKey : '#' ∉ key.toList) (value : Option String) :=
    hash_notMem_optionalEntry plainKey value
  simp only [fieldChars, List.mem_append, not_or]
  exact ⟨⟨⟨⟨⟨⟨⟨⟨⟨optional "scheme" (by decide) scheme, hash_notMem_actionChars _ _⟩, categories⟩,
    optional "type" (by decide) _⟩, optional "identifier" (by decide) _⟩,
    hash_notMem_flagChars _⟩, hash_notMem_packageChars _ _⟩, component⟩,
    optional "sourceBounds" (by decide) _⟩, extras⟩

theorem hash_notMem_entriesChars (intent : Intent)
    (scheme assumedAction assumedPackage : Option String) :
    '#' ∉ intent.entriesChars scheme assumedAction assumedPackage := by
  have start : '#' ∉ selectorStart := by decide
  rw [entriesChars, List.mem_append, not_or]
  refine ⟨hash_notMem_fieldChars intent _ _ _, ?_⟩
  cases intent.selector with
  | none => simp
  | some selector =>
      rw [List.mem_append, not_or]
      exact ⟨start, hash_notMem_fieldChars selector _ _ _⟩

theorem hash_notMem_linkEntries (intent : Intent) (flags : LinkFlags) :
    '#' ∉ intent.linkEntries flags ++ fragmentEnd := by
  have last : '#' ∉ fragmentEnd := by decide
  rw [linkEntries, List.mem_append, not_or]
  exact ⟨hash_notMem_entriesChars intent _ _ _, last⟩

end NumberSigns

section NoEntries

theorem entryChars_ne_nil (key : List Char) (value : String) : entryChars key value ≠ [] := by
  simp [entryChars]

@[simp]
theorem optionalEntry_eq_nil_iff {key : List Char} {value : Option String} :
    optionalEntry key value = [] ↔ value = none := by
  cases value with
  | none => simp [optionalEntry]
  | some value => simp [optionalEntry, entryChars_ne_nil]

@[simp]
theorem actionChars_eq_nil_iff {action assumed : Option String} :
    actionChars action assumed = [] ↔ action = assumed := by
  cases action with
  | none =>
      cases assumed with
      | none => simp [actionChars]
      | some assumed => simp [actionChars, entryChars_ne_nil]
  | some action =>
      rw [actionChars]
      by_cases same : some action = assumed
      · rw [if_pos same]
        exact iff_of_true rfl same
      · rw [if_neg same]
        exact iff_of_false (entryChars_ne_nil _ _) same

@[simp]
theorem flagChars_eq_nil_iff {flags : IntentFlags} : flagChars flags = [] ↔ flags.isEmpty = true := by
  rw [flagChars]
  split
  · simp [*]
  · simp [*]

@[simp]
theorem packageChars_eq_nil_iff {package assumed : Option String} :
    packageChars package assumed = [] ↔ package = assumed ∨ package = none := by
  rw [packageChars]
  split
  · simp [*]
  · simp [*]

@[simp]
theorem componentChars_ne_nil (component : Component) : componentChars component ≠ [] := by
  unfold componentChars
  simp

@[simp]
theorem extraChars_eq_nil_iff {entry : String × Value} :
    extraChars entry = [] ↔ entry.2.isScalar = false := by
  rw [extraChars, ← Value.isSome_taggedText?]
  cases taggedText? entry.2 with
  | none => simp
  | some tagText => simp [entryChars_ne_nil]

theorem fieldChars_eq_nil_iff {scheme assumedAction assumedPackage : Option String} :
    intent.fieldChars scheme assumedAction assumedPackage = [] ↔
      scheme = none ∧ intent.action = assumedAction ∧ intent.categories.names = [] ∧
        intent.mimeType = none ∧ intent.identifier = none ∧ intent.flags.isEmpty = true ∧
          (intent.package = assumedPackage ∨ intent.package = none) ∧ intent.component = none ∧
            intent.bounds = none ∧ ∀ entry ∈ intent.extras.entries, entry.2.isScalar = false := by
  have component : (intent.component.map componentChars).getD [] = [] ↔ intent.component = none := by
    cases intent.component with
    | none => simp
    | some component => simp
  have categories : intent.categories.names.flatMap (entryChars "category".toList) = [] ↔
      intent.categories.names = [] := by
    cases intent.categories.names with
    | nil => simp
    | cons name names => simp [entryChars_ne_nil]
  simp only [fieldChars, List.append_eq_nil_iff, optionalEntry_eq_nil_iff, actionChars_eq_nil_iff,
    categories, flagChars_eq_nil_iff, packageChars_eq_nil_iff, component, Option.map_eq_none_iff,
    List.flatMap_eq_nil_iff, extraChars_eq_nil_iff, and_assoc]

theorem entriesChars_eq_nil_iff {scheme assumedAction assumedPackage : Option String} :
    intent.entriesChars scheme assumedAction assumedPackage = [] ↔
      intent.fieldChars scheme assumedAction assumedPackage = [] ∧ intent.selector = none := by
  rw [entriesChars, List.append_eq_nil_iff]
  cases intent.selector with
  | none => simp
  | some selector => simp [selectorStart]

end NoEntries

section Cuts

theorem fragmentStart_eq : fragmentStart = '#' :: "Intent;".toList := rfl

/-- The fragment behind a head is found, as no number sign follows its own. -/
theorem cutFragment?_append (absent : '#' ∉ entries) :
    cutFragment? (head ++ (fragmentStart ++ entries)) = some (head, entries) := by
  have later : '#' ∉ "Intent;".toList ++ entries := by
    rw [List.mem_append, not_or]
    exact ⟨by decide, absent⟩
  rw [cutFragment?, fragmentStart_eq, List.cons_append, Text.cutLast?_append later]
  simp only [← List.cons_append, ← fragmentStart_eq, Text.strip?_append, Option.map_some]

theorem cutLastText?_fragmentStart (absent : '#' ∉ entries) :
    Text.cutLastText? fragmentStart (head ++ (fragmentStart ++ entries)) = some (head, entries) :=
  Text.cutLastText?_append (by decide) absent

theorem eq_append_of_cutFragment? (cut : cutFragment? characters = some (head, entries)) :
    characters = head ++ (fragmentStart ++ entries) ∧ '#' ∉ entries := by
  rw [cutFragment?] at cut
  split at cut
  · cases cut
  · rename_i data rest last
    rw [Option.map_eq_some_iff] at cut
    rcases cut with ⟨body, stripped, same⟩
    cases same
    rcases Text.eq_append_of_cutLast? last with ⟨whole, absent⟩
    have start : '#' :: rest = fragmentStart ++ entries := Text.strip?_eq_some_iff.1 stripped
    refine ⟨by rw [whole, start], ?_⟩
    rw [fragmentStart_eq, List.cons_append, List.cons.injEq] at start
    intro member
    exact absent (by simp [start.2, member])

/-- Whether the last number sign of a text begins a fragment of entries. -/
def EndsInFragment (characters : List Char) : Prop :=
  ∃ head entries, '#' ∉ entries ∧ characters = head ++ (fragmentStart ++ entries)

theorem cutFragment?_eq_none_iff : cutFragment? characters = none ↔ ¬EndsInFragment characters := by
  constructor
  · rintro cut ⟨head, entries, noMark, rfl⟩
    rw [cutFragment?_append noMark] at cut
    cases cut
  · intro absent
    cases cut : cutFragment? characters with
    | none => rfl
    | some parts =>
        rcases eq_append_of_cutFragment? cut with ⟨whole, noMark⟩
        exact absurd ⟨_, _, noMark, whole⟩ absent

theorem prefix_append_fragmentStart_iff {start : List Char} (absent : '#' ∉ start) :
    start <+: head ++ (fragmentStart ++ entries) ↔ start <+: head :=
  Text.prefix_append_separator_iff absent

theorem ofLink_of_app {text : String} (leads : appPrefix <+: text.toList) :
    ofLink text flags = ofAppLink text flags := by
  have someText : text ≠ "" := by
    rintro rfl
    exact absurd leads (by decide)
  simp [ofLink, someText, Text.isSome_strip?_iff, leads]

theorem ofLink_of_plain {text : String} (someText : text ≠ "") (leads : ¬appPrefix <+: text.toList) :
    ofLink text flags = ofPlainLink text flags := by
  simp [ofLink, someText, Text.isSome_strip?_iff, leads]

end Cuts

section Heads

theorem linkHead_of_app (intent : Intent) (app : flags.contains LinkFlags.appScheme = true) :
    appPrefix <+: intent.linkHead flags := by
  rw [linkHead, if_pos app, List.append_assoc, List.append_assoc]
  exact List.prefix_append _ _

theorem linkHead_of_plain (intent : Intent) (notApp : flags.contains LinkFlags.appScheme = false)
    (plain : flags.contains LinkFlags.intentScheme = false) :
    intent.linkHead flags = intent.dataChars ∧ intent.linkScheme flags = none := by
  simp [linkHead, linkScheme, notApp, plain]

theorem linkHead_of_intent (intent : Intent) (notApp : flags.contains LinkFlags.appScheme = false)
    (scheme : flags.contains LinkFlags.intentScheme = true) :
    intent.linkHead flags = intent.schemelessChars ∧ intent.linkScheme flags = intent.scheme := by
  simp [linkHead, linkScheme, notApp, scheme]

theorem linkAction_of_notApp (intent : Intent)
    (notApp : flags.contains LinkFlags.appScheme = false) :
    intent.linkAction flags = Action.view ∧ intent.linkPackage flags = none := by
  simp [linkAction, linkPackage, notApp]

theorem not_appPrefix_intentPrefix (rest : List Char) : ¬appPrefix <+: intentPrefix ++ rest := by
  rintro ⟨more, same⟩
  cases same

theorem dataText?_nil (scheme : Option String) : dataText? [] scheme = none := rfl

theorem dataText?_intentPrefix (scheme : Option String) : dataText? intentPrefix scheme = none := rfl

/-- The data behind the scheme of intents, with the scheme that has an entry of its own. -/
theorem dataText?_append {rest : List Char} (someText : rest ≠ []) (scheme : Option String) :
    dataText? (intentPrefix ++ rest) scheme =
      some (match scheme with
        | some scheme => scheme.toList ++ ':' :: rest
        | none => rest) := by
  rw [dataText?, Text.strip?_append]
  cases rest with
  | nil => exact absurd rfl someText
  | cons c rest =>
      cases scheme with
      | none => rfl
      | some scheme => rfl

theorem dataText?_of_plain {characters : List Char} (leads : ¬intentPrefix <+: characters)
    (someText : characters ≠ []) (scheme : Option String) :
    dataText? characters scheme = some characters := by
  have stripped : Text.strip? intentPrefix characters = none := by
    rw [← Option.not_isSome_iff_eq_none, Text.isSome_strip?_iff]
    exact leads
  simp [dataText?, stripped, someText]

/-- A URI without its scheme. -/
def schemeless (data : Uri) : List Char := data.body.chars ++ Uri.marked ['#'] data.fragment

theorem chars_eq_schemeless (data : Uri) :
    data.chars = Uri.schemeChars data.scheme ++ schemeless data := by
  rw [Uri.chars, schemeless, List.append_assoc]

theorem schemelessChars_of_none (given : intent.data = none) :
    intent.schemelessChars = intentPrefix := by
  simp [schemelessChars, given]

theorem schemelessChars_of_some {data : Uri} (given : intent.data = some data) :
    intent.schemelessChars = intentPrefix ++ schemeless data := by
  rw [schemelessChars, given]
  rfl

theorem dataText?_schemelessChars {data : Uri} (given : intent.data = some data)
    (someText : schemeless data ≠ []) :
    dataText? intent.schemelessChars intent.scheme = some data.chars := by
  rw [schemelessChars_of_some given, dataText?_append someText, Intent.scheme, given,
    chars_eq_schemeless, Option.bind_some]
  cases data.scheme with
  | none => rfl
  | some scheme => simp [Uri.schemeChars]

/-- A link with a fragment is cut in front of it. -/
theorem ofLink_of_written {text : String} (notApp : ¬appPrefix <+: intent.linkHead flags)
    (whole : text.toList = intent.linkHead flags ++
      (fragmentStart ++ (intent.linkEntries flags ++ fragmentEnd))) :
    ofLink text flags = ofPlainLink text flags ∧
      cutFragment? text.toList =
        some (intent.linkHead flags, intent.linkEntries flags ++ fragmentEnd) := by
  have someText : text ≠ "" := by
    rintro rfl
    simp [fragmentStart_eq] at whole
  have leads : ¬appPrefix <+: text.toList := by
    rw [whole, prefix_append_fragmentStart_iff (by decide)]
    exact notApp
  refine ⟨ofLink_of_plain someText leads, ?_⟩
  rw [whole]
  exact cutFragment?_append (hash_notMem_linkEntries intent flags)

end Heads

section Reading

variable {text : String}

/-- An intent with the data that stands in front of the fragment, if there is any. -/
def withData (intent : Intent) (data : Option Uri) : Intent :=
  { intent with data := data.or intent.data }

theorem withData_none (intent : Intent) : intent.withData none = intent := by
  cases intent
  rfl

theorem exists_readData?_some_iff (characters : List Char) :
    (∃ data, readData? (some characters) = .ok data) ↔
      ∃ data, Uri.parse (String.ofList characters) = .ok data := by
  rw [readData?]
  cases Uri.parse (String.ofList characters) with
  | error cause => simp [Except.map]
  | ok data => simp [Except.map]

theorem readData?_chars {data : Uri} (read : data.IsRead) :
    readData? (some data.chars) = .ok (some data) := by
  have parsed : Uri.parse (String.ofList data.chars) = .ok data := read.parse_text
  simp [readData?, parsed, Except.map]

/-- Dropping flags and adding a selector leaves alone what filters see. -/
theorem filterIdentity_finish (parsed : Parsed) (flags : LinkFlags) :
    (parsed.finish flags).filterIdentity = parsed.intent.filterIdentity := by
  have kept : (restricted flags parsed.intent).filterIdentity = parsed.intent.filterIdentity := by
    rw [restricted]
    split
    · rfl
    · rfl
  rw [← kept, Parsed.finish]
  split
  · rfl
  · split
    · rfl
    · rfl

theorem ofPlainLink_eq_ok_iff_of_none (cut : cutFragment? text.toList = none) :
    ofPlainLink text flags = .ok back ↔
      ∃ data, Uri.parse text = .ok data ∧ back = { ofAction Action.view with data := some data } := by
  rw [ofPlainLink, cut]
  cases Uri.parse text with
  | error cause => simp [Except.map]
  | ok data => simp [Except.map, eq_comm]

theorem ofPlainLink_eq_ok_iff (cut : cutFragment? text.toList = some (head, entries)) :
    ofPlainLink text flags = .ok back ↔
      ∃ parsed found, readFragment entries (ofAction Action.view) = .ok parsed ∧
        readData? (dataText? head parsed.scheme) = .ok found ∧
          back = (parsed.finish flags).withData found := by
  rw [ofPlainLink, cut]
  dsimp only
  cases fragment : readFragment entries (ofAction Action.view) with
  | error cause => simp
  | ok parsed =>
      have onlyParsed {other : Parsed} :
          (.ok parsed : Except Malformed Parsed) = .ok other ↔ other = parsed := by
        simp [eq_comm]
      simp only [onlyParsed, exists_and_left, exists_eq_left]
      cases found : readData? (dataText? head parsed.scheme) with
      | error cause => simp
      | ok data =>
          cases data with
          | none => simp [withData_none, eq_comm]
          | some data => simp [withData, eq_comm]

/-- The head of a link to an application, and its entries if there is a fragment. -/
def appParts (characters : List Char) : List Char × Option (List Char) :=
  match Text.cutLastText? fragmentStart characters with
  | some (head, entries) => (head, some entries)
  | none => (characters, none)

/-- What the entries of a link to an application describe, given the data that its head names. -/
def readAppEntries (entries : Option (List Char)) (data : Option Uri) (flags : LinkFlags) :
    Except Malformed Intent :=
  let base := ofAction (if data.isSome then Action.view else Action.main)
  match entries with
  | none => .ok base
  | some entries => (readFragment entries base).map (·.finish flags)

/-- An intent with a package, if it has neither a package nor a selector. -/
def withPackage (intent : Intent) (package : String) : Intent :=
  if intent.package.isNone && intent.selector.isNone then { intent with package := some package }
  else intent

theorem appParts_of_absent (absent : ¬fragmentStart <:+: characters) :
    appParts characters = (characters, none) := by
  rw [appParts]
  cases cut : Text.cutLastText? fragmentStart characters with
  | none => rfl
  | some parts =>
      refine (absent ⟨parts.1, parts.2, ?_⟩).elim
      rw [Text.eq_append_of_cutLastText? cut, List.append_assoc]

theorem appParts_isPrefix (characters : List Char) : (appParts characters).1 <+: characters := by
  rw [appParts]
  cases cut : Text.cutLastText? fragmentStart characters with
  | none => simp
  | some parts =>
      rw [Text.eq_append_of_cutLastText? cut]
      exact List.prefix_append _ _

theorem appParts_append (absent : '#' ∉ entries) :
    appParts (head ++ (fragmentStart ++ entries)) = (head, some entries) := by
  rw [appParts, cutLastText?_fragmentStart absent]

theorem ofAppLink_eq (text : String) (flags : LinkFlags) :
    ofAppLink text flags =
      match Uri.parse (String.ofList (appParts text.toList).1) with
      | .error cause => .error cause
      | .ok app =>
          match app.authority.filter (· != "") with
          | none => .error (.linkWithoutPackage text)
          | some package =>
              match readData? (segmentText? app.path.toList app.query) with
              | .error cause => .error cause
              | .ok data =>
                  match readAppEntries (appParts text.toList).2 data flags with
                  | .error cause => .error cause
                  | .ok described => .ok ({ described with data }.withPackage package) := by
  rfl

theorem ofAppLink_eq_ok_iff {entries : Option (List Char)}
    (parts : appParts text.toList = (head, entries)) :
    ofAppLink text flags = .ok back ↔
      ∃ app package data described, Uri.parse (String.ofList head) = .ok app ∧
        app.authority = some package ∧ package ≠ "" ∧
          readData? (segmentText? app.path.toList app.query) = .ok data ∧
            readAppEntries entries data flags = .ok described ∧
              back = { described with data }.withPackage package := by
  rw [ofAppLink_eq, parts]
  dsimp only
  constructor
  · intro read
    split at read
    · cases read
    rename_i app parsed
    split at read
    · cases read
    rename_i package named
    split at read
    · cases read
    rename_i data found
    split at read
    · cases read
    rename_i described entriesRead
    cases read
    rw [Option.filter_eq_some_iff, bne_iff_ne] at named
    exact ⟨app, package, data, described, parsed, named.1, named.2, found, entriesRead, rfl⟩
  · rintro ⟨app, package, data, described, parsed, authority, someText, found, entriesRead, rfl⟩
    have named : app.authority.filter (· != "") = some package := by
      rw [Option.filter_eq_some_iff, bne_iff_ne]
      exact ⟨authority, someText⟩
    simp only [parsed, named, found, entriesRead]

end Reading

end IntentRouting.Intent
