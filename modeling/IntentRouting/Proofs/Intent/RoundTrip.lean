import IntentRouting.Proofs.Intent.Shrinking

/-!
# Which intents come back from their links

Filters do not tell an intent from the one that is read from its link, except for the data. Data
stands in front of the entries as it is. It is lost or mistaken if it looks like the beginning of
another kind of link, and behind the scheme of intents if no entry says that it is a link.
-/

namespace IntentRouting

namespace Intent

open Text.Utf8 (size)

variable {intent back : Intent} {flags : LinkFlags} {data : Uri} {text : String}

/-- An intent of which a link shows nothing but the data. -/
structure IsBare (intent : Intent) : Prop where
  action : intent.action = some Action.view
  categories : intent.categories.names = []
  mimeType : intent.mimeType = none
  identifier : intent.identifier = none
  flags : intent.flags.isEmpty = true
  package : intent.package = none
  component : intent.component = none
  bounds : intent.bounds = none
  extras : ∀ entry ∈ intent.extras.entries, entry.2.isScalar = false
  selector : intent.selector = none

/-- Whether data is found again in front of the entries. An intent that is bare has no entries. -/
structure KeepsData (intent : Intent) (data : Uri) : Prop where
  notApp : data.scheme ≠ some "android-app"
  notIntent : ¬intent.IsBare → data.scheme ≠ some "intent"
  alone : intent.IsBare → data.chars ≠ intentPrefix ∧ ¬EndsInFragment data.chars

/-- Whether data is found again behind the scheme of intents. Its own scheme is an entry. -/
structure KeepsSchemelessData (intent : Intent) (data : Uri) : Prop where
  someText : schemeless data ≠ []
  written : data.scheme = none → ¬intent.IsBare

theorem entriesChars_eq_nil_iff_isBare {scheme : Option String} :
    intent.entriesChars scheme (some Action.view) none = [] ↔ scheme = none ∧ intent.IsBare := by
  rw [entriesChars_eq_nil_iff, fieldChars_eq_nil_iff]
  constructor
  · rintro ⟨⟨noScheme, action, categories, mimeType, identifier, flags, package, component, bounds,
      extras⟩, selector⟩
    exact ⟨noScheme, action, categories, mimeType, identifier, flags, by simpa using package,
      component, bounds, extras, selector⟩
  · rintro ⟨noScheme, bare⟩
    exact ⟨⟨noScheme, bare.action, bare.categories, bare.mimeType, bare.identifier, bare.flags,
      .inl bare.package, bare.component, bare.bounds, bare.extras⟩, bare.selector⟩

theorem linkEntries_eq_nil_iff (notAppScheme : flags.contains LinkFlags.appScheme = false) :
    intent.linkEntries flags = [] ↔ intent.linkScheme flags = none ∧ intent.IsBare := by
  have assumed := linkAction_of_notApp intent notAppScheme
  rw [linkEntries, assumed.1, assumed.2, entriesChars_eq_nil_iff_isBare]

/-- What is viewed cannot be told from a bare intent with the same data. -/
theorem IsBare.filterEquals_iff (bare : intent.IsBare) :
    ({ ofAction Action.view with data := some data } : Intent).filterEquals intent = true ↔
      intent.data = some data := by
  have categories : intent.categories = .empty := Categories.ext bare.categories
  simp [filterEquals, filterIdentity, ofAction, empty, bare.action, bare.mimeType, bare.component,
    categories, eq_comm]

theorem SameFields.filterEquals_iff {parsed : Parsed} (same : intent.SameFields parsed.intent)
    (noData : parsed.intent.data = none) (found : Option Uri) :
    ((parsed.finish flags).withData found).filterEquals intent = true ↔ found = intent.data := by
  have finished := filterIdentity_finish parsed flags
  simp only [filterIdentity, FilterIdentity.mk.injEq] at finished
  rcases finished with ⟨action, data, mimeType, component, categories⟩
  simp [filterEquals, filterIdentity, withData, action, data, mimeType, component, categories,
    same.action, same.mimeType, same.component, same.categories, noData]

theorem intentPrefix_iff (read : data.IsRead) :
    intentPrefix <+: data.chars ↔ data.scheme = some "intent" := by
  have start : intentPrefix = "intent".toList ++ [':'] := by decide
  rw [start, read.prefix_iff (by decide), String.ofList_toList]

theorem appPrefix_iff (read : data.IsRead) :
    appPrefix <+: data.chars ↔ data.scheme = some "android-app" := by
  have start : appPrefix = "android-app".toList ++ [':'] := by decide
  rw [start, read.prefix_iff (by decide), String.ofList_toList]

theorem readData?_dataText?_iff (read : data.IsRead) :
    readData? (dataText? data.chars none) = .ok (some data) ↔ data.scheme ≠ some "intent" := by
  rw [ne_eq, ← intentPrefix_iff read]
  constructor
  · intro found leads
    rcases leads with ⟨rest, same⟩
    have kept := eq_of_readData? found
    rw [← same] at kept
    by_cases empty : rest = []
    · rw [empty, List.append_nil, dataText?_intentPrefix] at kept
      cases kept
    · rw [dataText?_append empty, Option.some.injEq] at kept
      have seven : intentPrefix.length = 7 := by decide
      have length : rest.length = (intentPrefix ++ rest).length := congrArg List.length kept
      rw [List.length_append] at length
      omega
  · intro leads
    rw [dataText?_of_plain leads read.chars_ne_nil]
    exact readData?_chars read

theorem data_eq_of_filterEquals (equal : back.filterEquals intent = true) :
    back.data = intent.data := by
  simp only [filterEquals, filterIdentity, FilterIdentity.mk.injEq, decide_eq_true_eq] at equal
  exact equal.2.1

/-- Data under the scheme of applications is taken for the name of one, with or without entries. -/
theorem not_exists_filterEquals_of_app (given : intent.data = some data)
    (app : appPrefix <+: data.chars)
    (whole : text.toList = data.chars ∨
      ∃ entries, '#' ∉ entries ∧ text.toList = data.chars ++ (fragmentStart ++ entries)) :
    ¬∃ back, ofLink text flags = .ok back ∧ back.filterEquals intent = true := by
  rintro ⟨back, found, equal⟩
  have parts : appPrefix <+: text.toList ∧
      (appParts text.toList).1.length ≤ data.chars.length := by
    rcases whole with whole | ⟨entries, noMark, whole⟩
    · rw [whole]
      exact ⟨app, (appParts_isPrefix data.chars).length_le⟩
    · rw [whole, prefix_append_fragmentStart_iff (by decide), appParts_append noMark]
      exact ⟨app, Nat.le_refl _⟩
  rw [ofLink_of_app parts.1] at found
  have shorter := length_lt_of_ofAppLink found data ((data_eq_of_filterEquals equal).trans given)
  exact absurd shorter (Nat.not_lt.2 parts.2)

/-- A bare intent comes back from its data alone, unless its data has a fragment of entries. -/
theorem exists_filterEquals_omitted_iff (bare : intent.IsBare) (given : intent.data = some data)
    (read : data.IsRead) (whole : text.toList = data.chars) (notApp : ¬appPrefix <+: data.chars) :
    (∃ back, ofLink text flags = .ok back ∧ back.filterEquals intent = true) ↔
      ¬EndsInFragment data.chars := by
  have someText : text ≠ "" := by
    rintro rfl
    exact read.chars_ne_nil whole.symm
  rw [ofLink_of_plain someText (whole ▸ notApp), ← whole, ← cutFragment?_eq_none_iff]
  constructor
  · rintro ⟨back, found, equal⟩
    cases cut : cutFragment? text.toList with
    | none => rfl
    | some parts =>
        have bound := size_le_of_ofPlainLink cut found data
          ((data_eq_of_filterEquals equal).trans given)
        have start : size fragmentStart = 8 := by decide
        rw [whole] at bound
        omega
  · intro cut
    have parsed : Uri.parse text = .ok data := by
      rw [← String.ofList_toList (s := text), whole]
      exact read.parse_text
    exact ⟨_, (ofPlainLink_eq_ok_iff_of_none cut).2 ⟨data, parsed, rfl⟩,
      bare.filterEquals_iff.2 given⟩

/-- Behind the scheme of intents, nothing is read as an intent without a fragment. -/
theorem not_filterEquals_of_prefixed (given : intent.data = some data)
    (whole : text.toList = intentPrefix ++ data.chars) (found : ofPlainLink text flags = .ok back) :
    ¬back.filterEquals intent = true := by
  intro equal
  have same : back.data = some data := (data_eq_of_filterEquals equal).trans given
  cases cut : cutFragment? text.toList with
  | none =>
      rcases (ofPlainLink_eq_ok_iff_of_none cut).1 found with ⟨read, parsed, rfl⟩
      have chars := Uri.text_of_parse parsed
      cases same
      rw [Uri.text, ← String.toList_inj, String.toList_ofList, whole] at chars
      have seven : intentPrefix.length = 7 := by decide
      have length := congrArg List.length chars
      rw [List.length_append] at length
      omega
  | some parts =>
      have bound := size_le_of_ofPlainLink cut found data same
      have start : size fragmentStart = 8 := by decide
      have lead : size intentPrefix = 7 := by decide
      rw [whole, Text.Utf8.size_append] at bound
      omega

section Written

variable (regular : intent.IsRegular)
  (selectors : ∀ other ∈ intent.selector, other.IsRegular ∧ ∀ data ∈ other.data, data.IsRead)

include regular selectors

/-- What is read from a link with a fragment differs from the intent in its data alone. -/
theorem exists_filterEquals_written_iff (text : String)
    (notAppScheme : flags.contains LinkFlags.appScheme = false)
    (notApp : ¬appPrefix <+: intent.linkHead flags)
    (whole : text.toList = intent.linkHead flags ++
      (fragmentStart ++ (intent.linkEntries flags ++ fragmentEnd))) :
    (∃ back, ofLink text flags = .ok back ∧ back.filterEquals intent = true) ↔
      readData? (dataText? (intent.linkHead flags) (intent.linkScheme flags)) = .ok intent.data := by
  rcases ofLink_of_written notApp whole with ⟨plain, cut⟩
  have assumed := linkAction_of_notApp intent notAppScheme
  have fragment : readFragment (intent.linkEntries flags ++ fragmentEnd) (ofAction Action.view) =
      .ok ⟨(outline (some Action.view) none).completed intent (some Action.view) none,
        intent.selector.map selectorRead, intent.linkScheme flags⟩ := by
    rw [linkEntries, readFragment_entriesChars, assumed.1, assumed.2]
    apply (Parsed.receive_eq_ok_iff fun other given => (selectors other given).2).2
    exact ⟨regular.hasReadableFields,
      fun other given => (selectors other given).1.hasReadableFields, rfl⟩
  have same := sameFields_completed regular (some Action.view) none
  have noData := data_completed intent (outline (some Action.view) none) (some Action.view) none
  simp only [plain, ofPlainLink_eq_ok_iff cut, fragment, Except.ok.injEq]
  constructor
  · rintro ⟨_, ⟨_, found, rfl, read, rfl⟩, equal⟩
    rw [read, (same.filterEquals_iff noData found).1 equal]
  · intro read
    exact ⟨_, ⟨_, _, rfl, read, rfl⟩, (same.filterEquals_iff noData _).2 rfl⟩

/-- An intent without data always has a fragment, and comes back from it. -/
theorem exists_filterEquals_of_none (given : intent.data = none)
    (notAppScheme : flags.contains LinkFlags.appScheme = false)
    (written : intent.toLink flags = .ok text) :
    ∃ back, ofLink text flags = .ok back ∧ back.filterEquals intent = true := by
  have head : intent.linkHead flags = [] ∨ intent.linkHead flags = intentPrefix := by
    cases scheme : flags.contains LinkFlags.intentScheme with
    | true =>
        right
        rw [(linkHead_of_intent intent notAppScheme scheme).1, schemelessChars_of_none given]
    | false =>
        left
        simp [(linkHead_of_plain intent notAppScheme scheme).1, dataChars, given]
  have notApp : ¬appPrefix <+: intent.linkHead flags := by
    rcases head with head | head
    · rw [head]
      decide
    · rw [head]
      decide
  have noData : dataText? (intent.linkHead flags) (intent.linkScheme flags) = none := by
    rcases head with head | head
    · rw [head, dataText?_nil]
    · rw [head, dataText?_intentPrefix]
  rcases toLink_cases written with ⟨⟨_, someHead, notPrefix⟩, _⟩ | ⟨_, whole⟩
  · rcases head with head | head
    · exact absurd head someHead
    · exact absurd head notPrefix
  · apply (exists_filterEquals_written_iff regular selectors text notAppScheme notApp whole).2
    rw [noData, given, readData?]

theorem exists_filterEquals_plain_iff (given : intent.data = some data) (read : data.IsRead)
    (notAppScheme : flags.contains LinkFlags.appScheme = false)
    (plain : flags.contains LinkFlags.intentScheme = false)
    (written : intent.toLink flags = .ok text) :
    (∃ back, ofLink text flags = .ok back ∧ back.filterEquals intent = true) ↔
      intent.KeepsData data := by
  rcases linkHead_of_plain intent notAppScheme plain with ⟨head, noScheme⟩
  have ofData : intent.dataChars = data.chars := by simp [dataChars, given]
  have noMark := hash_notMem_linkEntries intent flags
  have links := toLink_cases written
  have readWritten := exists_filterEquals_written_iff regular selectors text notAppScheme
  rw [OmitsFragment, linkEntries_eq_nil_iff notAppScheme, noScheme, head, ofData] at links
  rw [noScheme, head, ofData] at readWritten
  by_cases app : appPrefix <+: data.chars
  · have notKept : ¬intent.KeepsData data := fun kept => kept.notApp ((appPrefix_iff read).1 app)
    refine iff_of_false (not_exists_filterEquals_of_app given app ?_) notKept
    rcases links with ⟨_, whole⟩ | ⟨_, whole⟩
    · left
      exact whole
    · right
      exact ⟨_, noMark, whole⟩
  have notAppData := mt (appPrefix_iff read).2 app
  rcases links with ⟨⟨⟨_, bare⟩, _, notPrefix⟩, whole⟩ | ⟨writes, whole⟩
  · rw [exists_filterEquals_omitted_iff bare given read whole app]
    constructor
    · intro cut
      exact ⟨notAppData, fun other => absurd bare other, fun _ => ⟨notPrefix, cut⟩⟩
    · intro kept
      exact (kept.alone bare).2
  · have onlyPrefix (bare : intent.IsBare) : data.chars = intentPrefix := by
      by_contra notPrefix
      exact writes ⟨⟨rfl, bare⟩, read.chars_ne_nil, notPrefix⟩
    rw [readWritten app whole, given, readData?_dataText?_iff read]
    constructor
    · intro notIntent
      refine ⟨notAppData, fun _ => notIntent, ?_⟩
      intro bare
      have leads : intentPrefix <+: data.chars := by simp [onlyPrefix bare]
      exact absurd ((intentPrefix_iff read).1 leads) notIntent
    · intro kept
      exact kept.notIntent fun bare => (kept.alone bare).1 (onlyPrefix bare)

theorem exists_filterEquals_schemeless_iff (given : intent.data = some data) (read : data.IsRead)
    (notAppScheme : flags.contains LinkFlags.appScheme = false)
    (scheme : flags.contains LinkFlags.intentScheme = true)
    (written : intent.toLink flags = .ok text) :
    (∃ back, ofLink text flags = .ok back ∧ back.filterEquals intent = true) ↔
      intent.KeepsSchemelessData data := by
  rcases linkHead_of_intent intent notAppScheme scheme with ⟨head, ofScheme⟩
  have prefixed := schemelessChars_of_some given
  have notApp : ¬appPrefix <+: intent.schemelessChars := by
    rw [prefixed]
    exact not_appPrefix_intentPrefix _
  have schemeOf : intent.scheme = data.scheme := by simp [Intent.scheme, given]
  have links := toLink_cases written
  have readWritten := exists_filterEquals_written_iff regular selectors text notAppScheme
  rw [OmitsFragment, linkEntries_eq_nil_iff notAppScheme, ofScheme, head] at links
  rw [ofScheme, head] at readWritten
  rcases links with ⟨⟨⟨noScheme, bare⟩, _⟩, whole⟩ | ⟨writes, whole⟩
  · have notKept : ¬intent.KeepsSchemelessData data := fun kept =>
      kept.written (schemeOf ▸ noScheme) bare
    have chars : text.toList = intentPrefix ++ data.chars := by
      rw [whole, prefixed, chars_eq_schemeless, ← schemeOf, noScheme, Uri.schemeChars,
        List.nil_append]
    have someText : text ≠ "" := by
      rintro rfl
      have lead : intentPrefix ≠ [] := by decide
      exact List.append_ne_nil_of_left_ne_nil lead _ chars.symm
    refine iff_of_false ?_ notKept
    rintro ⟨back, found, equal⟩
    rw [ofLink_of_plain someText (whole ▸ notApp)] at found
    exact not_filterEquals_of_prefixed given chars found equal
  · rw [readWritten notApp whole, given]
    by_cases empty : schemeless data = []
    · have notKept : ¬intent.KeepsSchemelessData data := fun kept => kept.someText empty
      rw [prefixed, empty, List.append_nil, dataText?_intentPrefix, readData?]
      exact iff_of_false (by simp) notKept
    · rw [dataText?_schemelessChars given empty]
      refine iff_of_true (readData?_chars read) ⟨empty, ?_⟩
      intro noScheme bare
      apply writes
      refine ⟨⟨schemeOf.trans noScheme, bare⟩, ?_⟩
      simp only [prefixed, ne_eq, List.append_eq_nil_iff, List.append_right_eq_self, empty,
        and_false, not_false_eq_true, and_self]

end Written

/-- Whether data is found again in the form of a link that some flags choose. -/
def KeepsDataIn (intent : Intent) (flags : LinkFlags) (data : Uri) : Prop :=
  if flags.contains LinkFlags.intentScheme then intent.KeepsSchemelessData data
  else intent.KeepsData data

/-- What is read from the link of an intent equals it for filters exactly if the form of the link
keeps its data. -/
theorem exists_ofLink_filterEquals_iff (regular : intent.IsRegular)
    (read : ∀ data ∈ intent.data, data.IsRead)
    (selectors : ∀ other ∈ intent.selector, other.IsRegular ∧ ∀ data ∈ other.data, data.IsRead)
    (form : flags = .empty ∨ flags = LinkFlags.intentScheme) :
    (∃ text back, intent.toLink flags = .ok text ∧ ofLink text flags = .ok back ∧
        back.filterEquals intent = true) ↔
      ∀ data ∈ intent.data, intent.KeepsDataIn flags data := by
  have notAppScheme : flags.contains LinkFlags.appScheme = false := by
    rcases form with rfl | rfl
    · rfl
    · rfl
  have written : ∃ text, intent.toLink flags = .ok text := by
    rw [toLink, notAppScheme]
    simp only [Bool.false_eq_true, if_false]
    split
    · exact ⟨_, rfl⟩
    · exact ⟨_, rfl⟩
  rcases written with ⟨text, written⟩
  have only : (∃ text back, intent.toLink flags = .ok text ∧ ofLink text flags = .ok back ∧
      back.filterEquals intent = true) ↔
        ∃ back, ofLink text flags = .ok back ∧ back.filterEquals intent = true := by
    simp [written]
  rw [only]
  cases given : intent.data with
  | none =>
      have back := exists_filterEquals_of_none regular selectors given notAppScheme written
      exact iff_of_true back (by simp)
  | some data =>
      have read := read data given
      simp only [Option.mem_some_iff, forall_eq', KeepsDataIn]
      cases scheme : flags.contains LinkFlags.intentScheme with
      | true =>
          simpa using exists_filterEquals_schemeless_iff regular selectors given read notAppScheme
            scheme written
      | false =>
          simpa using exists_filterEquals_plain_iff regular selectors given read notAppScheme
            scheme written

end Intent

namespace Sharing

open Intent

/-- A mail that is to be written, with a subject. -/
def mail : Intent :=
  { ofAction "android.intent.action.SENDTO" with
    data := some ⟨some "mailto", .specific "reader@example.org", none⟩
    extras := ⟨[("subject", .string "50% = #1;")]⟩ }

theorem mail_comes_back :
    mail.IsRegular ∧ (∀ data ∈ mail.data, data.IsRead) ∧ mail.selector = none ∧
      ∃ text back, mail.toLink LinkFlags.intentScheme = .ok text ∧
        ofLink text LinkFlags.intentScheme = .ok back ∧ back.filterEquals mail = true := by
  have regular : mail.IsRegular :=
    ⟨by decide, by simp [mail, Bundle.keys], by simp [mail, ofAction, Intent.empty]⟩
  have read : ∀ data ∈ mail.data, data.IsRead := by
    rintro _ ⟨⟩
    exact ⟨"mailto:reader@example.org", rfl⟩
  have selectors : ∀ other ∈ mail.selector,
      other.IsRegular ∧ ∀ data ∈ other.data, data.IsRead := by
    rintro _ ⟨⟩
  refine ⟨regular, read, rfl, ?_⟩
  apply (exists_ofLink_filterEquals_iff regular read selectors (.inr rfl)).2
  rintro _ ⟨⟩
  exact ⟨by decide, by rintro ⟨⟩⟩

/-- A file that is to be viewed, by its path alone. -/
def file : Intent :=
  { ofAction Action.view with data := some ⟨none, .hierarchical none "/sdcard/x" none, none⟩ }

theorem file_comes_back_as_another :
    file.IsRegular ∧ (∀ data ∈ file.data, data.IsRead) ∧ file.selector = none ∧
      file.toLink LinkFlags.intentScheme = .ok "intent:/sdcard/x" ∧
        ∃ back, ofLink "intent:/sdcard/x" LinkFlags.intentScheme = .ok back ∧
          back.data = some ⟨some "intent", .hierarchical none "/sdcard/x" none, none⟩ ∧
            back.filterEquals file = false := by
  have regular : file.IsRegular :=
    ⟨by decide, by simp [file, ofAction, Intent.empty, Bundle.keys],
      by simp [file, ofAction, Intent.empty]⟩
  have read : ∀ data ∈ file.data, data.IsRead := by
    rintro _ ⟨⟩
    exact ⟨"/sdcard/x", rfl⟩
  exact ⟨regular, read, rfl, rfl, _, rfl, rfl, by decide⟩

end Sharing

end IntentRouting
