import IntentRouting.Proofs.Intent.Effects
import IntentRouting.Proofs.Intent.Link

/-!
# Which links are read

Whatever is written as a link should be read again. It is, exactly if the entries can be read
(`HasReadableFields`) and the head is not mistaken: a head under the scheme of applications has to
name an application, and data under the scheme of intents has to be data without that scheme as
well, where entries follow it. Where no fragment was written, a head in which `#Intent;` stands is
read as a link of its own.
-/

namespace IntentRouting

namespace Intent

section Segments

variable {app : Uri} {path : List Char} {query : Option String}

/-- The first segment of a path that is not empty. -/
def firstSegment (path : List Char) : List Char :=
  (Text.cut '/' (path.dropWhile (· = '/'))).1

theorem segmentText?_of_empty (empty : firstSegment path = []) : segmentText? path query = none := by
  rw [firstSegment] at empty
  simp [segmentText?, empty]

/-- The text that segments write begins with the first segment and is little longer than they. -/
theorem segmentText?_of_some (someText : firstSegment path ≠ []) :
    ∃ more, segmentText? path query = some (firstSegment path ++ ':' :: more) ∧
      (∀ c ∈ more, c = '/' ∨ c ∈ path ∨ c ∈ Uri.marked ['?'] query) ∧
        (firstSegment path).length + more.length ≤
          path.length + (Uri.marked ['?'] query).length + 1 := by
  have trimmed : (path.dropWhile (· = '/')).length ≤ path.length :=
    (List.dropWhile_suffix _).length_le
  have within : ∀ c ∈ path.dropWhile (· = '/'), c ∈ path :=
    fun _ member => (List.dropWhile_suffix _).subset member
  rw [firstSegment] at someText ⊢
  unfold segmentText?
  rcases Text.cut_cases '/' (path.dropWhile (· = '/')) with
    ⟨_, cut⟩ | ⟨segment, rest, _, whole, cut⟩
  · have someText' : (path.dropWhile (· = '/')).isEmpty = false := by
      simpa [cut] using someText
    refine ⟨[], ?_, by simp, ?_⟩
    · simp [cut, someText', Text.cut]
    · simp only [cut, List.length_nil]
      omega
  · have someText' : segment.isEmpty = false := by
      simpa [cut] using someText
    have parts := Text.cut_append_rest '/' rest
    rw [whole] at trimmed within
    simp only [cut, someText', Option.getD_some]
    split
    · cases ‹false = true›
    split
    · refine ⟨[], rfl, by simp, ?_⟩
      simp only [List.length_append, List.length_cons, List.length_nil] at trimmed ⊢
      omega
    · refine ⟨"//".toList ++ rest ++ Uri.marked ['?'] query, ?_, ?_, ?_⟩
      · have mark : "://".toList = ':' :: "//".toList := by decide
        rw [List.append_assoc, List.append_assoc, ← List.append_assoc _ _ (Uri.marked ['?'] query),
          parts, mark]
        simp only [List.append_assoc, List.cons_append]
      · intro c member
        have slashes : "//".toList = ['/', '/'] := by decide
        rw [slashes, List.mem_append, List.mem_append] at member
        rcases member with (slash | inRest) | inQuery
        · simp only [List.mem_cons, List.not_mem_nil, or_false, or_self] at slash
          exact .inl slash
        · exact .inr (.inl (within c (by simp [inRest])))
        · exact .inr (.inr inQuery)
      · have slashes : "//".toList.length = 2 := by decide
        simp only [List.length_append, List.length_cons, slashes] at trimmed ⊢
        omega

/-- Whether a URI under the scheme of applications names one: the package is its authority, and its
first segment, if there is one, begins with the scheme of the data. -/
def NamesApp (app : Uri) : Prop :=
  (∃ package ∈ app.authority, package ≠ "") ∧
    (firstSegment app.path.toList ≠ [] →
      Uri.isScheme (Text.cut ':' (firstSegment app.path.toList)).1 = true)

/-- The data that segments name is a URI exactly if the first of them begins with a scheme. -/
theorem exists_readData?_iff (read : app.IsRead) :
    (∃ data, readData? (segmentText? app.path.toList app.query) = .ok data) ↔
      (firstSegment app.path.toList ≠ [] →
        Uri.isScheme (Text.cut ':' (firstSegment app.path.toList)).1 = true) := by
  have wellFormed := Uri.isRead_iff.1 read
  by_cases empty : firstSegment app.path.toList = []
  · simp [segmentText?_of_empty empty, readData?, empty]
  rcases segmentText?_of_some empty with ⟨more, text, within, _⟩
  have inSegment : ∀ c ∈ firstSegment app.path.toList, c ∈ app.path.toList ∧ c ≠ '/' := by
    intro c member
    refine ⟨(List.dropWhile_suffix _).subset (Text.mem_of_mem_cut member), ?_⟩
    rintro rfl
    exact Text.notMem_cut member
  have inBody : ∀ c ∈ app.body.chars, c ≠ '#' ∧ Uri.isForbidden c = false := by
    intro c member
    refine ⟨?_, wellFormed.allowed c (List.mem_append_left _ member)⟩
    rintro rfl
    exact wellFormed.noMark member
  have inMore : ∀ c ∈ more, c ≠ '#' ∧ Uri.isForbidden c = false := by
    intro c member
    rcases within c member with rfl | inPath | inQuery
    · decide
    · exact inBody c (Uri.mem_body_of_path inPath)
    · exact inBody c (Uri.mem_body_of_query inQuery)
  -- The text is divided by the first colon of the segment, or by the one behind it.
  rcases Text.exists_append_eq_cut_append ':' (firstSegment app.path.toList) more with
    ⟨rest, same, origin⟩
  have inRest : ∀ c ∈ rest, c ≠ '#' ∧ Uri.isForbidden c = false := by
    intro c member
    rcases origin c member with here | rfl | later
    · exact inBody c (Uri.mem_body_of_path (inSegment c here).1)
    · decide
    · exact inMore c later
  have undivided : ∀ c ∈ (Text.cut ':' (firstSegment app.path.toList)).1,
      Uri.endsScheme c = false ∧ c ≠ '#' := by
    intro c member
    have notColon : c ≠ ':' := by
      rintro rfl
      exact Text.notMem_cut member
    rcases inSegment c (Text.mem_of_mem_cut member) with ⟨inPath, notSlash⟩
    have notQuestion : c ≠ '?' := by
      rintro rfl
      exact read.notMem_path inPath
    exact ⟨by simp [Uri.endsScheme, notColon, notSlash, notQuestion],
      (inBody c (Uri.mem_body_of_path inPath)).1⟩
  have noMark : '#' ∉ rest := fun member => (inRest '#' member).1 rfl
  have parsed := Uri.exists_parse_iff undivided noMark fun c member => (inRest c member).2
  rw [text, same, exists_readData?_some_iff, parsed]
  simp [empty]

end Segments

section Legible

variable {intent back : Intent} {flags : LinkFlags} {head : List Char} {text : String}

/-- Whether the entries of an intent and of its selector can be read. -/
def HasReadableEntries (intent : Intent) : Prop :=
  intent.HasReadableFields ∧ ∀ other ∈ intent.selector, other.HasReadableFields

/-- Whether a text is a URI that names an application. -/
def HeadNamesApp (head : List Char) : Prop :=
  ∃ app, Uri.parse (String.ofList head) = .ok app ∧ NamesApp app

/-- Whether what stands in front of the entries can be read. -/
structure HasReadableHead (intent : Intent) (flags : LinkFlags) : Prop where
  /-- A head under the scheme of applications has to name one. -/
  app : ¬intent.OmitsFragment flags → appPrefix <+: intent.linkHead flags →
    HeadNamesApp (intent.linkHead flags)
  /-- Data under the scheme of intents has to be data without it. -/
  data : ¬intent.OmitsFragment flags → flags.contains LinkFlags.intentScheme = false →
    ∀ rest, intent.linkHead flags = intentPrefix ++ rest →
      rest = [] ∨ ∃ data, Uri.parse (String.ofList rest) = .ok data
  /-- Where no fragment follows, what stands behind `#Intent;` in the head has to be entries. -/
  ownApp : intent.OmitsFragment flags → appPrefix <+: intent.linkHead flags →
    HeadNamesApp (appParts (intent.linkHead flags)).1 ∧
      ∀ entries ∈ (appParts (intent.linkHead flags)).2, ∃ scheme, AreEntries entries scheme
  own : intent.OmitsFragment flags → ¬appPrefix <+: intent.linkHead flags →
    ∀ head entries, '#' ∉ entries → intent.linkHead flags = head ++ (fragmentStart ++ entries) →
      ∃ scheme, AreEntries entries scheme ∧
        ∃ data, readData? (dataText? head scheme) = .ok data

/-- What is read from the entries of a link. -/
theorem areEntries_linkEntries_iff {scheme : Option String} (sound : intent.IsSound) :
    AreEntries (intent.linkEntries flags ++ fragmentEnd) scheme ↔
      intent.HasReadableEntries ∧ intent.linkScheme flags = scheme := by
  have read : ∀ other ∈ intent.selector, ∀ data ∈ other.data, data.IsRead :=
    fun other given => (sound.selector other given).data
  simp only [AreEntries, linkEntries, readFragment_entriesChars, Parsed.receive_eq_ok_iff read,
    HasReadableEntries]
  constructor
  · rintro ⟨_, ⟨fields, selector, rfl⟩, rfl⟩
    exact ⟨⟨fields, selector⟩, rfl⟩
  · rintro ⟨⟨fields, selector⟩, rfl⟩
    exact ⟨_, ⟨fields, selector, rfl⟩, rfl⟩

theorem exists_readAppEntries_iff (given : Option (List Char)) (data : Option Uri) :
    (∃ back, readAppEntries given data flags = .ok back) ↔
      ∀ entries ∈ given, ∃ scheme, AreEntries entries scheme := by
  cases given with
  | none => simp [readAppEntries]
  | some entries =>
      simp only [readAppEntries, Option.mem_some_iff, forall_eq',
        areEntries_iff entries (ofAction (if data.isSome then Action.view else Action.main))]
      cases readFragment entries (ofAction (if data.isSome then Action.view else Action.main)) with
      | error cause => simp [Except.map]
      | ok parsed => simp [Except.map]

theorem exists_ofAppLink_iff (text : String) :
    (∃ back, ofAppLink text flags = .ok back) ↔
      HeadNamesApp (appParts text.toList).1 ∧
        ∀ entries ∈ (appParts text.toList).2, ∃ scheme, AreEntries entries scheme := by
  rcases parts : appParts text.toList with ⟨head, entries⟩
  simp only [ofAppLink_eq_ok_iff parts]
  constructor
  · rintro ⟨_, app, package, data, back, parsed, named, someText, found, read, _⟩
    have isRead : app.IsRead := ⟨_, parsed⟩
    have segment := (exists_readData?_iff isRead).1 ⟨data, found⟩
    exact ⟨⟨app, parsed, ⟨package, named, someText⟩, segment⟩,
      (exists_readAppEntries_iff entries data).1 ⟨back, read⟩⟩
  · rintro ⟨⟨app, parsed, ⟨package, named, someText⟩, segment⟩, entriesRead⟩
    have isRead : app.IsRead := ⟨_, parsed⟩
    rcases (exists_readData?_iff isRead).2 segment with ⟨data, found⟩
    rcases (exists_readAppEntries_iff entries data).2 entriesRead with ⟨back, read⟩
    exact ⟨_, app, package, data, back, parsed, named, someText, found, read, rfl⟩

theorem exists_ofPlainLink_iff {entries : List Char}
    (cut : cutFragment? text.toList = some (head, entries)) :
    (∃ back, ofPlainLink text flags = .ok back) ↔
      ∃ scheme, AreEntries entries scheme ∧
        ∃ data, readData? (dataText? head scheme) = .ok data := by
  simp only [ofPlainLink_eq_ok_iff cut, areEntries_iff _ (ofAction Action.view)]
  constructor
  · rintro ⟨_, parsed, data, read, found, _⟩
    exact ⟨parsed.scheme, ⟨parsed, read, rfl⟩, data, found⟩
  · rintro ⟨_, ⟨parsed, read, rfl⟩, data, found⟩
    exact ⟨_, parsed, data, read, found, rfl⟩

theorem exists_readData?_schemelessChars (read : ∀ data ∈ intent.data, data.IsRead) :
    ∃ data, readData? (dataText? intent.schemelessChars intent.scheme) = .ok data := by
  have nothing : ∃ data, readData? none = .ok data := ⟨none, rfl⟩
  cases given : intent.data with
  | none =>
      rw [schemelessChars_of_none given]
      exact nothing
  | some data =>
      by_cases empty : schemeless data = []
      · rw [schemelessChars_of_some given, empty, List.append_nil]
        exact nothing
      · rw [dataText?_schemelessChars given empty]
        exact ⟨data, readData?_chars (read data given)⟩

theorem exists_readData?_dataChars_iff (read : ∀ data ∈ intent.data, data.IsRead) :
    (∃ data, readData? (dataText? intent.dataChars none) = .ok data) ↔
      ∀ rest, intent.dataChars = intentPrefix ++ rest →
        rest = [] ∨ ∃ data, Uri.parse (String.ofList rest) = .ok data := by
  have nothing : ∃ data, readData? none = .ok data := ⟨none, rfl⟩
  by_cases leads : intentPrefix <+: intent.dataChars
  · rcases leads with ⟨rest, same⟩
    rw [← same]
    simp only [List.append_cancel_left_eq, forall_eq']
    by_cases empty : rest = []
    · rw [empty, List.append_nil]
      exact iff_of_true nothing (.inl rfl)
    · rw [dataText?_append empty, exists_readData?_some_iff]
      simp [empty]
  · have unprefixed : ∀ rest, intent.dataChars = intentPrefix ++ rest →
        rest = [] ∨ ∃ data, Uri.parse (String.ofList rest) = .ok data := by
      intro rest same
      exact absurd ⟨rest, same.symm⟩ leads
    refine iff_of_true ?_ unprefixed
    cases given : intent.data with
    | none =>
        have empty : intent.dataChars = [] := by simp [dataChars, given]
        rw [empty]
        exact nothing
    | some data =>
        have whole : intent.dataChars = data.chars := by simp [dataChars, given]
        rw [whole] at leads ⊢
        rw [dataText?_of_plain leads (read data given).chars_ne_nil]
        exact ⟨data, readData?_chars (read data given)⟩

/-- The data in front of the entries can be read, unless it is under the scheme of intents itself. -/
theorem exists_readData?_head_iff (sound : intent.IsSound)
    (notApp : ¬appPrefix <+: intent.linkHead flags) :
    (∃ data, readData? (dataText? (intent.linkHead flags) (intent.linkScheme flags)) = .ok data) ↔
      (flags.contains LinkFlags.intentScheme = false →
        ∀ rest, intent.linkHead flags = intentPrefix ++ rest →
          rest = [] ∨ ∃ data, Uri.parse (String.ofList rest) = .ok data) := by
  have notAppScheme : flags.contains LinkFlags.appScheme = false := by
    rw [← Bool.not_eq_true]
    intro app
    exact notApp (linkHead_of_app intent app)
  cases scheme : flags.contains LinkFlags.intentScheme with
  | true =>
      rcases linkHead_of_intent intent notAppScheme scheme with ⟨head, ofScheme⟩
      rw [head, ofScheme]
      exact iff_of_true (exists_readData?_schemelessChars sound.data) (by rintro ⟨⟩)
  | false =>
      rcases linkHead_of_plain intent notAppScheme scheme with ⟨head, noScheme⟩
      simp only [head, noScheme, forall_const]
      exact exists_readData?_dataChars_iff sound.data

/-- A link without a fragment is written for an intent whose entries can all be read. -/
theorem OmitsFragment.hasReadableEntries (omits : intent.OmitsFragment flags) :
    intent.HasReadableEntries := by
  rcases entriesChars_eq_nil_iff.1 omits.1 with ⟨fields, noSelector⟩
  rcases fieldChars_eq_nil_iff.1 fields with
    ⟨_, _, _, _, _, _, _, noComponent, _, noScalar⟩
  refine ⟨⟨?_, ?_⟩, ?_⟩
  · intro entry member scalar
    rw [noScalar entry member] at scalar
    cases scalar
  · simp [noComponent]
  · simp [noSelector]

/-- A head without a fragment of its own is a URI under the scheme of intents or the data itself. -/
theorem OmitsFragment.exists_parse (omits : intent.OmitsFragment flags) (sound : intent.IsSound)
    (notApp : ¬appPrefix <+: intent.linkHead flags) :
    ∃ data, Uri.parse (String.ofList (intent.linkHead flags)) = .ok data := by
  have notAppScheme : flags.contains LinkFlags.appScheme = false := by
    rw [← Bool.not_eq_true]
    intro app
    exact notApp (linkHead_of_app intent app)
  rcases omits with ⟨_, someHead, notPrefix⟩
  cases scheme : flags.contains LinkFlags.intentScheme with
  | true =>
      rw [(linkHead_of_intent intent notAppScheme scheme).1] at notPrefix ⊢
      cases given : intent.data with
      | none => exact absurd (schemelessChars_of_none given) notPrefix
      | some data =>
          have wellFormed := Uri.isRead_iff.1 (sound.data data given)
          have valid : Uri.isScheme "intent".toList = true := by decide
          have start : intentPrefix = "intent".toList ++ [':'] := by decide
          have whole : intentPrefix ++ (data.body.chars ++ Uri.marked ['#'] data.fragment) =
              "intent".toList ++ ':' :: data.body.chars ++ Uri.marked ['#'] data.fragment := by
            rw [start]
            simp only [List.append_assoc, List.cons_append, List.nil_append]
          rw [schemelessChars_of_some given, schemeless, whole]
          exact ⟨_, Uri.parse_withScheme valid wellFormed.noMark wellFormed.allowed⟩
  | false =>
      rw [(linkHead_of_plain intent notAppScheme scheme).1] at someHead ⊢
      cases given : intent.data with
      | none => exact absurd (by simp [dataChars, given]) someHead
      | some data =>
          have whole : intent.dataChars = data.chars := by
            simp [dataChars, given]
          rw [whole]
          exact ⟨data, (sound.data data given).parse_text⟩

theorem exists_ofLink_omitted_iff (sound : intent.IsSound) (omits : intent.OmitsFragment flags)
    (whole : text.toList = intent.linkHead flags) :
    (∃ back, ofLink text flags = .ok back) ↔ intent.HasReadableHead flags := by
  have readable_iff : intent.HasReadableHead flags ↔
      (appPrefix <+: text.toList → HeadNamesApp (appParts text.toList).1 ∧
        ∀ entries ∈ (appParts text.toList).2, ∃ scheme, AreEntries entries scheme) ∧
      (¬appPrefix <+: text.toList → ∀ head entries, '#' ∉ entries →
        text.toList = head ++ (fragmentStart ++ entries) → ∃ scheme, AreEntries entries scheme ∧
          ∃ data, readData? (dataText? head scheme) = .ok data) := by
    rw [whole]
    constructor
    · intro readable
      exact ⟨readable.ownApp omits, readable.own omits⟩
    · rintro ⟨ownApp, own⟩
      exact ⟨fun writes => absurd omits writes, fun writes => absurd omits writes,
        fun _ => ownApp, fun _ => own⟩
  rw [readable_iff]
  by_cases app : appPrefix <+: text.toList
  · rw [ofLink_of_app app, exists_ofAppLink_iff]
    simp [app]
  · have someText : text ≠ "" := by
      rintro rfl
      exact omits.2.1 whole.symm
    rw [ofLink_of_plain someText app]
    simp only [app, false_implies, not_false_eq_true, true_implies, true_and]
    cases cut : cutFragment? text.toList with
    | none =>
        rcases omits.exists_parse sound (whole ▸ app) with ⟨data, parsed⟩
        rw [← whole, String.ofList_toList] at parsed
        refine iff_of_true ⟨_, (ofPlainLink_eq_ok_iff_of_none cut).2 ⟨data, parsed, rfl⟩⟩ ?_
        intro head entries noMark same
        exact absurd ⟨head, entries, noMark, same⟩ (cutFragment?_eq_none_iff.1 cut)
    | some parts =>
        rw [exists_ofPlainLink_iff cut]
        constructor
        · intro readable head entries noMark same
          rw [same, cutFragment?_append noMark] at cut
          cases cut
          exact readable
        · intro readable
          rcases eq_append_of_cutFragment? cut with ⟨same, noMark⟩
          exact readable _ _ noMark same

theorem exists_ofLink_written_iff (sound : intent.IsSound)
    (whole : text.toList = intent.linkHead flags ++
      (fragmentStart ++ (intent.linkEntries flags ++ fragmentEnd))) :
    (∃ back, ofLink text flags = .ok back) ↔
      intent.HasReadableEntries ∧
        (appPrefix <+: intent.linkHead flags → HeadNamesApp (intent.linkHead flags)) ∧
          (flags.contains LinkFlags.intentScheme = false →
            ∀ rest, intent.linkHead flags = intentPrefix ++ rest →
              rest = [] ∨ ∃ data, Uri.parse (String.ofList rest) = .ok data) := by
  have noMark := hash_notMem_linkEntries intent flags
  by_cases app : appPrefix <+: intent.linkHead flags
  · have leads : appPrefix <+: text.toList := by
      rw [whole, prefix_append_fragmentStart_iff (by decide)]
      exact app
    have parts : appParts text.toList =
        (intent.linkHead flags, some (intent.linkEntries flags ++ fragmentEnd)) := by
      rw [whole]
      exact appParts_append noMark
    have notIntent (rest : List Char) : intent.linkHead flags ≠ intentPrefix ++ rest := by
      intro same
      rw [same] at app
      exact not_appPrefix_intentPrefix rest app
    rw [ofLink_of_app leads, exists_ofAppLink_iff, parts]
    simp [areEntries_linkEntries_iff sound, app, notIntent, and_comm]
  · rcases ofLink_of_written app whole with ⟨plain, cut⟩
    rw [plain, exists_ofPlainLink_iff cut]
    simp only [areEntries_linkEntries_iff sound, ← exists_readData?_head_iff sound app, app,
      false_implies, true_and, and_assoc, exists_and_left, exists_eq_left']

/-- What is written for an intent is read again exactly if its entries and the head can be read. -/
theorem exists_ofLink_iff (built : intent.IsBuilt) (flags : LinkFlags)
    (written : intent.toLink flags = .ok text) :
    (∃ back, ofLink text flags = .ok back) ↔
      intent.HasReadableEntries ∧ intent.HasReadableHead flags := by
  have sound := built.isSound
  rcases toLink_cases written with ⟨omits, whole⟩ | ⟨writes, whole⟩
  · rw [exists_ofLink_omitted_iff sound omits whole, iff_and_self]
    intro _
    exact omits.hasReadableEntries
  · rw [exists_ofLink_written_iff sound whole]
    constructor
    · rintro ⟨entries, names, data⟩
      exact ⟨entries, fun _ => names, fun _ => data, fun omits => absurd omits writes,
        fun omits => absurd omits writes⟩
    · rintro ⟨entries, head⟩
      exact ⟨entries, head.app writes, head.data writes⟩

end Legible

end Intent

namespace Sharing

open Intent

def webPage : Uri := ⟨some "https", .hierarchical (some "example.org") "/page" none, none⟩

/-- A request that a reader shows a page. -/
def opening : Intent :=
  { ofAction Action.view with data := some webPage, package := some "org.example.reader" }

theorem opening_isBuilt : opening.IsBuilt := by
  have action := IsBuilt.empty.changed (.action (some Action.view)) rfl rfl rfl
  have data : IsBuilt { ofAction Action.view with data := some webPage } := by
    refine .change (.data (some webPage)) action (by simp [Change.intents]) ?_ rfl
    intro uri member
    rcases List.mem_singleton.1 member with rfl
    exact ⟨"https://example.org/page", rfl⟩
  exact data.changed (.package (some "org.example.reader")) rfl rfl rfl

theorem opening_is_read_again :
    opening.IsBuilt ∧
      opening.toLink LinkFlags.appScheme =
          .ok "android-app://org.example.reader/https/example.org/page" ∧
        ∃ back, ofLink "android-app://org.example.reader/https/example.org/page"
          LinkFlags.appScheme = .ok back := by
  have written : opening.toLink LinkFlags.appScheme =
      .ok "android-app://org.example.reader/https/example.org/page" := rfl
  have head : opening.linkHead LinkFlags.appScheme =
      "android-app://org.example.reader/https/example.org/page".toList := by
    decide +kernel
  have omits : opening.OmitsFragment LinkFlags.appScheme := by
    decide +kernel
  have app : Uri.parse "android-app://org.example.reader/https/example.org/page" =
      .ok ⟨some "android-app", .hierarchical (some "org.example.reader")
        "/https/example.org/page" none, none⟩ := rfl
  have alone : ¬fragmentStart <:+: opening.linkHead LinkFlags.appScheme := by
    rw [head]
    decide +kernel
  refine ⟨opening_isBuilt, written, (exists_ofLink_iff opening_isBuilt _ written).2 ⟨?_, ?_⟩⟩
  · exact omits.hasReadableEntries
  · refine ⟨fun writes => absurd omits writes, fun writes => absurd omits writes, fun _ _ => ?_,
      fun _ notApp => absurd (linkHead_of_app opening rfl) notApp⟩
    rw [appParts_of_absent alone, head]
    refine ⟨⟨_, app, ⟨"org.example.reader", rfl, by decide⟩, fun _ => by decide +kernel⟩, ?_⟩
    rintro _ ⟨⟩

/-- A request with an extra whose name is empty. -/
def unnamed : Intent := { ofAction Action.view with extras := ⟨[("", .string "x")]⟩ }

/-- The link of an intent whose extra has an empty name is refused by the reader. -/
theorem unnamed_is_not_read_again :
    unnamed.IsBuilt ∧ unnamed.toLink .empty = .ok "#Intent;S.=x;end" ∧
      ¬∃ back, ofLink "#Intent;S.=x;end" .empty = .ok back := by
  have action : IsBuilt (ofAction Action.view) :=
    .change (.action (some _)) .empty (by simp [Change.intents]) (by simp [Change.uris]) rfl
  have built : unnamed.IsBuilt :=
    .change (.putExtra "" (.string "x")) action (by simp [Change.intents]) (by simp [Change.uris]) rfl
  have whole : "#Intent;S.=x;end".toList = unnamed.linkHead .empty ++
      (fragmentStart ++ (unnamed.linkEntries .empty ++ fragmentEnd)) := by
    decide +kernel
  refine ⟨built, rfl, ?_⟩
  rw [exists_ofLink_written_iff built.isSound whole]
  rintro ⟨entries, _⟩
  exact entries.1.named ("", .string "x") (List.mem_singleton_self _) rfl rfl

end Sharing

end IntentRouting
