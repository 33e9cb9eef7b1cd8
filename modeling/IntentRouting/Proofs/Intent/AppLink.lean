import IntentRouting.Proofs.Intent.Link
import IntentRouting.Proofs.Uri.Hierarchy

/-!
# Links to applications

A link under the scheme of applications is a URI whose authority is the package of the intent. Its
path is the scheme, the authority and the path of the data, one behind the other, so data comes back
from it if it has the first two of them and no fragment. The package has no entry: it is filled in
from the head, which is why a package and a selector must not be set together.
-/

namespace IntentRouting

namespace Intent

variable {intent back : Intent} {flags : LinkFlags} {package : String} {data : Uri}

section Head

/-- Whether a package can stand as the authority of a URI. -/
structure FitsAuthority (package : String) : Prop where
  someText : package ≠ ""
  allowed : ∀ c ∈ package.toList, Uri.isForbidden c = false
  undivided : ∀ c ∈ package.toList, c ≠ '/' ∧ c ≠ '?' ∧ c ≠ '#'

/-- Whether data can be written as the segments of a path. -/
structure FitsSegments (data : Uri) : Prop where
  scheme : data.scheme ≠ none
  authority : ∃ authority ∈ data.authority, authority ≠ ""
  fragment : data.fragment = none

theorem FitsSegments.exists_parts (fits : FitsSegments data) :
    ∃ scheme authority path query,
      data = ⟨some scheme, .hierarchical (some authority) path query, none⟩ ∧ authority ≠ "" := by
  rcases data with ⟨_ | scheme, _ | ⟨authority, path, query⟩, fragment⟩
  · exact absurd rfl fits.scheme
  · exact absurd rfl fits.scheme
  · rcases fits.authority with ⟨_, ⟨⟩, _⟩
  · rcases fits.authority with ⟨authority, given, someText⟩
    cases given
    cases fits.fragment
    exact ⟨scheme, authority, path, query, rfl, someText⟩

/-- The data that is read from a scheme, an authority and a path behind each other. -/
theorem segmentText?_segments {scheme authority path : List Char}
    (valid : Uri.isScheme scheme = true) (someText : authority ≠ []) (noSlash : '/' ∉ authority)
    (leads : path = [] ∨ path.head? = some '/') (query : Option String) :
    segmentText? ('/' :: scheme ++ '/' :: authority ++ path) query =
      some (scheme ++ "://".toList ++ authority ++ path ++ Uri.marked ['?'] query) := by
  have undivided : ∀ c ∈ scheme, c ≠ '/' := by
    rintro c member rfl
    have divides := (Uri.of_isSchemeChar (Uri.isSchemeChar_of_mem valid member)).2.1
    cases divides
  have plain : '/' ∉ scheme := fun member => undivided '/' member rfl
  have someScheme : scheme.isEmpty = false := by
    cases scheme with
    | nil => cases valid
    | cons first rest => rfl
  have trimmed : ('/' :: scheme ++ '/' :: authority ++ path).dropWhile (· = '/') =
      scheme ++ '/' :: (authority ++ path) := by
    cases scheme with
    | nil => cases valid
    | cons first rest => simp [undivided first (List.mem_cons_self ..)]
  have someAuthority : authority.isEmpty = false := by simpa using someText
  rw [segmentText?, trimmed, Text.cut_append plain]
  simp only [someScheme, Option.getD_some]
  cases path with
  | nil => simp [Text.cut_of_notMem noSlash, someAuthority]
  | cons first rest =>
      have slash : first = '/' := by simpa using leads
      simp [slash, Text.cut_append noSlash, someAuthority]

/-- The scheme, the authority and the path of data, one behind the other. -/
def segmentPath : Option Uri → List Char
  | none => []
  | some data =>
      '/' :: (data.scheme.getD "").toList ++ '/' :: (data.authority.getD "").toList ++
        data.path.toList

/-- The head of a link to an application, taken apart. -/
def appUri (package : String) (data : Option Uri) : Uri :=
  ⟨some "android-app",
    .hierarchical (some package) (String.ofList (segmentPath data)) (data.bind Uri.query), none⟩

theorem plain_query {given : Option Uri} (read : ∀ data ∈ given, data.IsRead) :
    ∀ query ∈ given.bind Uri.query,
      '#' ∉ query.toList ∧ ∀ c ∈ Uri.marked ['?'] (some query), Uri.isForbidden c = false := by
  intro query found
  rcases Option.bind_eq_some_iff.1 found with ⟨data, same, ofData⟩
  have wellFormed := Uri.isRead_iff.1 (read data same)
  have inBody : ∀ c ∈ Uri.marked ['?'] (some query), c ∈ data.body.chars := by
    intro c member
    exact Uri.mem_body_of_query (ofData ▸ member)
  constructor
  · intro member
    exact wellFormed.noMark (inBody '#' (List.mem_cons_of_mem _ member))
  · intro c member
    exact wellFormed.allowed c (List.mem_append_left _ (inBody c member))

section AppUri

variable {data : Option Uri} (fits : ∀ given ∈ data, FitsSegments given)

include fits

theorem chars_appUri : (appUri package data).chars =
    appPrefix ++ "//".toList ++ package.toList ++ segmentChars data := by
  have start : "android-app".toList ++ [':'] = appPrefix := by decide
  have slashes : "//".toList = ['/', '/'] := by decide
  cases data with
  | none =>
      simp [appUri, segmentPath, segmentChars, Uri.chars, Uri.schemeChars, Uri.Body.chars,
        Uri.marked, ← start, slashes]
  | some data =>
      rcases (fits data rfl).exists_parts with ⟨scheme, authority, path, query, rfl, _⟩
      simp [appUri, segmentPath, segmentChars, Uri.chars, Uri.schemeChars, Uri.Body.chars,
        Uri.marked, Uri.authority, Uri.path, Uri.query, ← start, slashes]

theorem readData?_appUri (read : ∀ given ∈ data, given.IsRead) :
    readData? (segmentText? (appUri package data).path.toList (appUri package data).query) =
      .ok data := by
  cases data with
  | none => rfl
  | some data =>
      have read := read data rfl
      rcases (fits data rfl).exists_parts with ⟨scheme, authority, path, query, rfl, someText⟩
      rcases (Uri.isRead_iff_isReadable rfl).1 read with ⟨valid, ⟨inAuthority, _⟩, _⟩
      rcases inAuthority authority rfl with ⟨noSlash, _, _, leads⟩
      have text := segmentText?_segments valid (by simpa using someText) noSlash leads query
      have whole : scheme.toList ++ "://".toList ++ authority.toList ++ path.toList ++
          Uri.marked ['?'] query =
            Uri.chars ⟨some scheme, .hierarchical (some authority) path query, none⟩ := by
        simp [Uri.chars, Uri.schemeChars, Uri.Body.chars, Uri.marked]
      rw [whole] at text
      show readData? (segmentText? (String.ofList (segmentPath _)).toList query) = _
      rw [String.toList_ofList]
      exact (congrArg readData? text).trans (readData?_chars read)

theorem plain_segmentPath (read : ∀ given ∈ data, given.IsRead) :
    ∀ c ∈ segmentPath data, Uri.isForbidden c = false ∧ c ≠ '?' ∧ c ≠ '#' := by
  intro c member
  cases data with
  | none => cases member
  | some data =>
      have read := read data rfl
      rcases (fits data rfl).exists_parts with ⟨scheme, authority, path, query, rfl, _⟩
      rcases (Uri.isRead_iff_isReadable rfl).1 read with ⟨valid, readable, allowed⟩
      have noMark := readable.noMark
      rcases readable with ⟨inAuthority, _, _, noQuery, _⟩
      have inBody (c : Char) (member : c ∈ authority.toList ∨ c ∈ path.toList) (asks : c ≠ '?') :
          Uri.isForbidden c = false ∧ c ≠ '?' ∧ c ≠ '#' := by
        have written : c ∈ Uri.Body.chars (.hierarchical (some authority) path query) := by
          simp only [Uri.Body.chars, Uri.marked, List.mem_append]
          exact .inl (member.imp_left .inr)
        refine ⟨allowed c (List.mem_append_left _ written), asks, ?_⟩
        rintro rfl
        exact noMark written
      have slash : Uri.isForbidden '/' = false ∧ '/' ≠ '?' ∧ '/' ≠ '#' := by decide
      simp only [segmentPath, Option.getD_some, Uri.authority, Uri.path, List.mem_append,
        List.mem_cons] at member
      rcases member with ((rfl | inScheme) | rfl | inAuthority') | inPath
      · exact slash
      · rcases Uri.of_isSchemeChar (Uri.isSchemeChar_of_mem valid inScheme) with
          ⟨allowed, undivided, notMark⟩
        refine ⟨allowed, ?_, notMark⟩
        rintro rfl
        cases undivided
      · exact slash
      · refine inBody c (.inl inAuthority') ?_
        rintro rfl
        exact (inAuthority authority rfl).2.1 inAuthority'
      · refine inBody c (.inr inPath) ?_
        rintro rfl
        exact noQuery inPath

theorem isReadable_appUri (named : FitsAuthority package) (read : ∀ given ∈ data, given.IsRead) :
    (appUri package data).body.IsReadable true := by
  have plain := plain_segmentPath fits read
  have leads : segmentPath data = [] ∨ (segmentPath data).head? = some '/' := by
    cases data with
    | none => exact .inl rfl
    | some data => exact .inr rfl
  simp only [appUri, Uri.Body.IsReadable, String.toList_ofList]
  refine ⟨?_, by rintro ⟨⟩, by rintro ⟨⟩, ?_, ?_, ?_⟩
  · rintro _ ⟨⟩
    exact ⟨fun member => (named.undivided _ member).1 rfl,
      fun member => (named.undivided _ member).2.1 rfl,
      fun member => (named.undivided _ member).2.2 rfl, leads⟩
  · exact fun member => (plain _ member).2.1 rfl
  · exact fun member => (plain _ member).2.2 rfl
  · exact fun query found => (plain_query read query found).1

theorem isRead_appUri (named : FitsAuthority package) (read : ∀ given ∈ data, given.IsRead) :
    (appUri package data).IsRead := by
  refine (Uri.isRead_iff_isReadable rfl).2 ⟨by decide, isReadable_appUri fits named read, ?_⟩
  intro c member
  have slash : Uri.isForbidden '/' = false := by decide
  simp only [appUri, Uri.Body.chars, Uri.marked.eq_2, String.toList_ofList, Uri.marked.eq_1,
    List.append_nil, List.mem_append] at member
  rcases member with ((slashes | inPackage) | inPath) | inQuery
  · simp only [List.mem_cons, List.not_mem_nil, or_false, or_self] at slashes
    rwa [slashes]
  · exact named.allowed c inPackage
  · exact (plain_segmentPath fits read c inPath).1
  · cases found : data.bind Uri.query with
    | none =>
        rw [found] at inQuery
        cases inQuery
    | some query =>
        rw [found] at inQuery
        exact (plain_query read query found).2 c inQuery

end AppUri

theorem hash_notMem_appUri {given : Option Uri} (read : (appUri package given).IsRead) :
    '#' ∉ (appUri package given).chars := by
  have start : '#' ∉ Uri.schemeChars (some "android-app") := by decide
  have noMark := (Uri.isRead_iff.1 read).noMark
  rw [Uri.chars, List.mem_append, List.mem_append, not_or, not_or]
  exact ⟨⟨start, noMark⟩, List.not_mem_nil⟩

end Head

section Entries

variable {text : String}

/-- The package that a reader assumes is not read again. -/
theorem completed_package (base intent : Intent) (assumed : Option String) :
    base.completed intent assumed intent.package =
      { base.completed intent assumed none with package := base.package } := by
  rw [completed, completed, putExtras_eq, putExtras_eq]
  simp only [overlay, if_true]

/-- Whether an intent is what the entries of a link to an application say of another one: all that
filters see but the data, and neither a package nor a selector. -/
structure DescribedBy (intent back : Intent) : Prop where
  identity : back.filterIdentity = { intent.filterIdentity with data := none }
  package : back.package = none
  selector : back.selector = none

theorem DescribedBy.restricted (described : intent.DescribedBy back) (flags : LinkFlags) :
    intent.DescribedBy (restricted flags back) := by
  rw [Intent.restricted]
  split
  · exact described
  · exact ⟨described.identity, described.package, described.selector⟩

/-- The action that is assumed for an application, given its data. -/
def appAction (intent : Intent) : String :=
  if intent.data.isSome then Action.view else Action.main

/-- What the entries of a link to an application complete. -/
def appDescription (intent : Intent) : Intent :=
  (ofAction intent.appAction).completed intent (some intent.appAction) intent.package

theorem describedBy_appDescription (regular : intent.IsRegular) :
    intent.DescribedBy intent.appDescription := by
  have same := sameFields_completed regular (some intent.appAction) none
  have data := data_completed intent (outline (some intent.appAction) none)
    (some intent.appAction) none
  have selector := selector_completed intent (ofAction intent.appAction) (some intent.appAction)
    intent.package
  refine ⟨?_, ?_, selector⟩
  · rw [appDescription, completed_package, filterIdentity, FilterIdentity.mk.injEq]
    exact ⟨same.action, data, same.mimeType, same.component, same.categories⟩
  · rw [appDescription, completed_package]
    rfl

theorem readFragment_linkEntries (regular : intent.IsRegular) (noSelector : intent.selector = none)
    (app : flags.contains LinkFlags.appScheme = true) :
    readFragment (intent.linkEntries flags ++ fragmentEnd) (ofAction intent.appAction) =
      .ok ⟨intent.appDescription, none, none⟩ := by
  have action : intent.linkAction flags = intent.appAction := by
    rw [linkAction, appAction, app, Bool.true_and]
    cases intent.data with
    | none => rfl
    | some data => rfl
  have entries : intent.linkEntries flags =
      intent.entriesChars none (some intent.appAction) intent.package := by
    rw [linkEntries, linkScheme, linkPackage, if_pos app, if_pos app, action]
  rw [entries, readFragment_entriesChars]
  apply (Parsed.receive_eq_ok_iff (by simp [noSelector])).2
  exact ⟨regular.hasReadableFields, by simp [noSelector], by simp [noSelector, appDescription]⟩

/-- The entries of a link to an application describe its intent, whether or not they are written. -/
theorem exists_readAppEntries_eq (regular : intent.IsRegular) (noSelector : intent.selector = none)
    (app : flags.contains LinkFlags.appScheme = true) (written : intent.toLink flags = .ok text)
    (noMark : '#' ∉ intent.linkHead flags) (reading : LinkFlags) :
    ∃ entries described, appParts text.toList = (intent.linkHead flags, entries) ∧
      readAppEntries entries intent.data reading = .ok described ∧
        intent.DescribedBy described := by
  have fragment := readFragment_linkEntries regular noSelector app
  have described := describedBy_appDescription regular
  rcases toLink_cases written with ⟨omits, whole⟩ | ⟨_, whole⟩
  · have absent : ¬fragmentStart <:+: text.toList := by
      rw [whole]
      exact fun inside => noMark (inside.subset (by decide))
    -- Reading no entries changes nothing, so the base is the whole description.
    have unchanged : ofAction intent.appAction = intent.appDescription := by
      rw [omits.1] at fragment
      exact congrArg Parsed.intent (Except.ok.inj fragment)
    refine ⟨none, intent.appDescription, ?_, ?_, described⟩
    · rw [appParts_of_absent absent, whole]
    · rw [← unchanged]
      rfl
  · refine ⟨some (intent.linkEntries flags ++ fragmentEnd), _, ?_, ?_, described.restricted reading⟩
    · rw [whole, appParts_append (hash_notMem_linkEntries intent flags)]
    · rw [readAppEntries, ← appAction, fragment]
      rfl

/-- An intent comes back from its link to the application that it names. -/
theorem exists_ofLink_app (built : intent.IsBuilt) (regular : intent.IsRegular)
    (given : intent.package = some package) (named : FitsAuthority package)
    (fits : ∀ data ∈ intent.data, FitsSegments data) (reading : LinkFlags) :
    ∃ text back, intent.toLink LinkFlags.appScheme = .ok text ∧
      ofLink text reading = .ok back ∧ back.filterEquals intent = true ∧
        back.package = some package := by
  have sound := built.isSound
  have noSelector : intent.selector = none := sound.exclusive.resolve_left (by simp [given])
  have app : LinkFlags.appScheme.contains LinkFlags.appScheme = true := rfl
  have head : intent.linkHead LinkFlags.appScheme = (appUri package intent.data).chars := by
    rw [chars_appUri fits, linkHead, if_pos app, given, Option.getD_some]
  have read := isRead_appUri fits named sound.data
  have noMark : '#' ∉ intent.linkHead LinkFlags.appScheme := by
    rw [head]
    exact hash_notMem_appUri read
  have written : intent.toLink LinkFlags.appScheme =
      .ok (String.ofList (intent.appSchemeChars package)) := by
    rw [toLink, if_pos app, given]
  rcases exists_readAppEntries_eq regular noSelector app written noMark reading with
    ⟨entries, back, parts, readEntries, described⟩
  have leads : appPrefix <+: (String.ofList (intent.appSchemeChars package)).toList := by
    have ofHead := appParts_isPrefix (String.ofList (intent.appSchemeChars package)).toList
    rw [parts] at ofHead
    exact (linkHead_of_app intent app).trans ofHead
  have filled : { back with data := intent.data }.withPackage package =
      { back with data := intent.data, package := some package } := by
    simp only [withPackage, described.package, described.selector, Option.isNone_none,
      Bool.and_self, if_true]
  have same : { back.filterIdentity with data := intent.data } = intent.filterIdentity := by
    rw [described.identity]
    rfl
  refine ⟨_, { back with data := intent.data, package := some package }, written, ?_, ?_, rfl⟩
  · rw [ofLink_of_app leads]
    apply (ofAppLink_eq_ok_iff parts).2
    refine ⟨appUri package intent.data, package, intent.data, back, ?_, rfl, named.someText,
      readData?_appUri fits sound.data, readEntries, filled.symm⟩
    rw [head]
    exact read.parse_text
  · rw [filterEquals, ← same, decide_eq_true_eq]
    rfl

end Entries

end Intent

namespace Sharing

open Intent

/-- A page whose path begins with two slashes and whose query is empty. -/
def archive : Uri := ⟨some "https", .hierarchical (some "example.org") "//2024/" (some ""), none⟩

/-- A request that a reader marks a page as seen. -/
def marking : Intent :=
  { ofAction "org.example.action.MARK" with
    data := some archive
    package := some "org.example.reader"
    extras := ⟨[("seen", .bool true)]⟩ }

theorem marking_isBuilt : marking.IsBuilt := by
  have action := IsBuilt.empty.changed (.action (some "org.example.action.MARK")) rfl rfl rfl
  have data : IsBuilt { ofAction "org.example.action.MARK" with data := some archive } := by
    refine .change (.data (some archive)) action (by simp [Change.intents]) ?_ rfl
    intro uri member
    rcases List.mem_singleton.1 member with rfl
    exact ⟨"https://example.org//2024/?", rfl⟩
  have package := data.changed (.package (some "org.example.reader")) rfl rfl rfl
  exact package.changed (.putExtra "seen" (.bool true)) rfl rfl rfl

theorem marking_comes_back :
    marking.IsBuilt ∧ marking.IsRegular ∧ marking.package = some "org.example.reader" ∧
      FitsAuthority "org.example.reader" ∧ (∀ data ∈ marking.data, FitsSegments data) ∧
        ∃ text back, marking.toLink LinkFlags.appScheme = .ok text ∧
          ofLink text .empty = .ok back ∧ back.filterEquals marking = true ∧
            back.package = some "org.example.reader" := by
  have regular : marking.IsRegular :=
    ⟨by decide, by simp [marking, Bundle.keys], by simp [marking, ofAction, Intent.empty]⟩
  have plain : ("org.example.reader".toList.all fun c =>
      !Uri.isForbidden c && c != '/' && c != '?' && c != '#') = true := by
    decide
  rw [List.all_eq_true] at plain
  have named : FitsAuthority "org.example.reader" := by
    refine ⟨by decide, ?_, ?_⟩
    · intro c member
      have plain := plain c member
      simp only [Bool.and_eq_true, Bool.not_eq_true'] at plain
      exact plain.1.1.1
    · intro c member
      have plain := plain c member
      simp only [Bool.and_eq_true, bne_iff_ne] at plain
      exact ⟨plain.1.1.2, plain.1.2, plain.2⟩
  have fits : ∀ data ∈ marking.data, FitsSegments data := by
    rintro _ ⟨⟩
    exact ⟨by decide, ⟨"example.org", rfl, by decide⟩, rfl⟩
  exact ⟨marking_isBuilt, regular, rfl, named, fits,
    exists_ofLink_app marking_isBuilt regular rfl named fits .empty⟩

end Sharing

end IntentRouting
