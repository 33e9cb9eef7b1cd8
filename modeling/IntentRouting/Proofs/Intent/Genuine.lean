import IntentRouting.Intent.Document
import IntentRouting.Proofs.Intent.Exclusive
import IntentRouting.Proofs.Json.Record

/-!
# What holds throughout an intent

Intents, bundles, values and clips are nested in each other. Throughout all of them, every URI is one
that was read and the names of a bundle differ (`Intent.IsGenuine`), however they are made: no change
brings in anything else than what it is given, a link puts only values without parts beside the URIs that
it reads, and a document is read from the bottom up.
-/

namespace IntentRouting

/-- A value without URIs, intents and bundles. -/
def Value.isPlain : Value → Bool
  | .uri _ | .intent _ | .bundle _ => false
  | _ => true

mutual

/-- Whether every URI in an intent was read and the names of every bundle in it differ, at any
depth. -/
inductive Intent.IsGenuine : Intent → Prop
  | of {intent : Intent} (data : ∀ uri ∈ intent.data, uri.IsRead)
      (selector : ∀ other ∈ intent.selector, other.IsGenuine) (extras : intent.extras.IsGenuine)
      (clip : ∀ clip ∈ intent.clip, clip.IsGenuine) : intent.IsGenuine

inductive Bundle.IsGenuine : Bundle → Prop
  | of {bundle : Bundle} (distinct : bundle.Distinct)
      (values : ∀ entry ∈ bundle.entries, entry.2.IsGenuine) : bundle.IsGenuine

inductive Value.IsGenuine : Value → Prop
  | plain {value : Value} (plain : value.isPlain = true) : value.IsGenuine
  | uri {uri : Uri} (read : uri.IsRead) : Value.IsGenuine (.uri uri)
  | intent {intent : Intent} (genuine : intent.IsGenuine) : Value.IsGenuine (.intent intent)
  | bundle {bundle : Bundle} (genuine : bundle.IsGenuine) : Value.IsGenuine (.bundle bundle)

inductive Clip.IsGenuine : Clip → Prop
  | of {clip : Clip} (items : ∀ item ∈ clip.items, item.IsGenuine) : clip.IsGenuine

inductive ClipItem.IsGenuine : ClipItem → Prop
  | of {item : ClipItem} (uri : ∀ uri ∈ item.uri, uri.IsRead)
      (intent : ∀ intent ∈ item.intent, intent.IsGenuine) : item.IsGenuine

end

theorem Value.IsGenuine.of_intent {intent : Intent} (genuine : Value.IsGenuine (.intent intent)) :
    intent.IsGenuine := by
  cases genuine with
  | plain plain => cases plain
  | intent genuine => exact genuine

theorem Value.IsGenuine.of_bundle {bundle : Bundle} (genuine : Value.IsGenuine (.bundle bundle)) :
    bundle.IsGenuine := by
  cases genuine with
  | plain plain => cases plain
  | bundle genuine => exact genuine

theorem Clip.IsGenuine.items {clip : Clip} (genuine : clip.IsGenuine) :
    ∀ item ∈ clip.items, item.IsGenuine := by
  cases genuine with
  | of items => exact items

theorem ClipItem.IsGenuine.uri {item : ClipItem} (genuine : item.IsGenuine) :
    ∀ uri ∈ item.uri, uri.IsRead := by
  cases genuine with
  | of uri _ => exact uri

theorem ClipItem.IsGenuine.intent {item : ClipItem} (genuine : item.IsGenuine) :
    ∀ intent ∈ item.intent, intent.IsGenuine := by
  cases genuine with
  | of _ intent => exact intent

namespace Bundle

variable {bundle other : Bundle} {key : String} {value : Value}

theorem IsGenuine.distinct (genuine : bundle.IsGenuine) : bundle.Distinct := by
  cases genuine with
  | of distinct _ => exact distinct

theorem IsGenuine.values (genuine : bundle.IsGenuine) :
    ∀ entry ∈ bundle.entries, entry.2.IsGenuine := by
  cases genuine with
  | of _ values => exact values

theorem isGenuine_empty : empty.IsGenuine :=
  .of List.nodup_nil (List.forall_mem_nil _)

theorem IsGenuine.insert (genuine : bundle.IsGenuine) (given : value.IsGenuine) (key : String) :
    (bundle.insert key value).IsGenuine := by
  refine .of (genuine.distinct.insert key value) ?_
  intro entry member
  rcases mem_insertEntry member with rfl | before
  · exact given
  · exact genuine.values entry before

theorem IsGenuine.erase (genuine : bundle.IsGenuine) (key : String) :
    (bundle.erase key).IsGenuine :=
  .of (genuine.distinct.erase key) fun entry member =>
    genuine.values entry (List.mem_filter.1 member).1

theorem isGenuine_foldl {entries : List (String × Value)} (genuine : bundle.IsGenuine)
    (given : ∀ entry ∈ entries, entry.2.IsGenuine) {step : Bundle → String × Value → Bundle}
    (steps : ∀ bundle entry, step bundle entry = bundle ∨
      step bundle entry = bundle.insert entry.1 entry.2) :
    (entries.foldl step bundle).IsGenuine := by
  induction entries generalizing bundle with
  | nil => exact genuine
  | cons entry entries ih =>
      rw [List.forall_mem_cons] at given
      apply ih _ given.2
      rcases steps bundle entry with same | inserted
      · rwa [same]
      · rw [inserted]
        exact genuine.insert given.1 entry.1

theorem IsGenuine.fillMissing (genuine : bundle.IsGenuine) (given : other.IsGenuine) :
    (bundle.fillMissing other).IsGenuine := by
  refine isGenuine_foldl genuine given.values fun bundle entry => ?_
  split
  · exact .inl rfl
  · exact .inr rfl

theorem isGenuine_ofList {entries : List (String × Value)}
    (given : ∀ entry ∈ entries, entry.2.IsGenuine) : (ofList entries).IsGenuine :=
  isGenuine_foldl isGenuine_empty given fun _ _ => .inr rfl

end Bundle

namespace Intent

variable {intent after : Intent} {flags : LinkFlags}

theorem IsGenuine.data (genuine : intent.IsGenuine) : ∀ uri ∈ intent.data, uri.IsRead := by
  cases genuine with
  | of data _ _ _ => exact data

theorem IsGenuine.selector (genuine : intent.IsGenuine) :
    ∀ other ∈ intent.selector, other.IsGenuine := by
  cases genuine with
  | of _ selector _ _ => exact selector

theorem IsGenuine.extras (genuine : intent.IsGenuine) : intent.extras.IsGenuine := by
  cases genuine with
  | of _ _ extras _ => exact extras

theorem IsGenuine.clip (genuine : intent.IsGenuine) : ∀ clip ∈ intent.clip, clip.IsGenuine := by
  cases genuine with
  | of _ _ _ clip => exact clip

theorem IsGenuine.withData (genuine : intent.IsGenuine) (data : ∀ uri ∈ after.data, uri.IsRead)
    (selector : after.selector = intent.selector) (extras : after.extras = intent.extras)
    (clip : after.clip = intent.clip) : after.IsGenuine := by
  apply IsGenuine.of data
  · exact selector ▸ genuine.selector
  · exact extras ▸ genuine.extras
  · exact clip ▸ genuine.clip

theorem IsGenuine.congr (genuine : intent.IsGenuine) (data : after.data = intent.data)
    (selector : after.selector = intent.selector) (extras : after.extras = intent.extras)
    (clip : after.clip = intent.clip) : after.IsGenuine :=
  genuine.withData (data ▸ genuine.data) selector extras clip

theorem isGenuine_empty : empty.IsGenuine := by
  refine .of ?_ ?_ Bundle.isGenuine_empty ?_ <;> rintro _ ⟨⟩

section Changes

/-- The values that a change puts. -/
def Change.values : Change → List Value
  | .putExtra _ value => [value]
  | _ => []

/-- The clips that a change sets. -/
def Change.clips : Change → List Clip
  | .clip given => given.toList
  | _ => []

theorem data_fillIn (intent template : Intent) (allow : FillInFlags) :
    (intent.fillIn template allow).2.data = template.data ∨
      (intent.fillIn template allow).2.data = intent.data :=
  ite_eq_or_eq ..

theorem clip_fillIn (intent template : Intent) (allow : FillInFlags) :
    (intent.fillIn template allow).2.clip = template.clip ∨
      (intent.fillIn template allow).2.clip = intent.clip :=
  ite_eq_or_eq ..

theorem IsGenuine.fillIn {template : Intent} (genuine : intent.IsGenuine)
    (given : template.IsGenuine) (allow : FillInFlags) :
    (intent.fillIn template allow).2.IsGenuine := by
  refine .of ?_ ?_ (genuine.extras.fillMissing given.extras) ?_
  · rcases intent.data_fillIn template allow with same | same
    · exact same ▸ given.data
    · exact same ▸ genuine.data
  · rcases intent.selector_fillIn template allow with same | same
    · exact same ▸ given.selector
    · exact same ▸ genuine.selector
  · rcases intent.clip_fillIn template allow with same | same
    · exact same ▸ given.clip
    · exact same ▸ genuine.clip

/-- A change brings in nothing but what it is given. -/
theorem IsGenuine.apply {change : Change} (genuine : intent.IsGenuine)
    (uris : ∀ uri ∈ change.uris, uri.IsRead) (intents : ∀ other ∈ change.intents, other.IsGenuine)
    (values : ∀ value ∈ change.values, value.IsGenuine)
    (clips : ∀ clip ∈ change.clips, clip.IsGenuine)
    (applied : intent.apply change = .ok after) : after.IsGenuine := by
  cases change with
  | action _ | identifier _ | addCategory _ | removeCategory _ | component _ | className _ _
    | flags _ | addFlags _ | removeFlags _ | bounds _ =>
      cases applied
      exact genuine.congr rfl rfl rfl rfl
  | data uri | dataAndType uri _ =>
      cases applied
      exact genuine.withData (fun data found => uris data (Option.mem_toList.2 found)) rfl rfl rfl
  | normalizedData uri | normalizedDataAndType uri _ =>
      cases applied
      refine genuine.withData ?_ rfl rfl rfl
      rintro _ ⟨⟩
      exact (uris uri (List.mem_singleton_self uri)).normalizeScheme
  | type _ | normalizedType _ =>
      cases applied
      refine genuine.withData ?_ rfl rfl rfl
      rintro _ ⟨⟩
  | package name =>
      simp only [Intent.apply, setPackage] at applied
      split at applied
      · cases applied
      · cases applied
        exact genuine.congr rfl rfl rfl rfl
  | selector other =>
      simp only [Intent.apply, setSelector] at applied
      split at applied
      · cases applied
      · cases applied
        exact .of genuine.data (fun given found => intents given (Option.mem_toList.2 found))
          genuine.extras genuine.clip
  | putExtra key value =>
      cases applied
      exact .of genuine.data genuine.selector
        (genuine.extras.insert (values value (List.mem_singleton_self value)) key) genuine.clip
  | removeExtra key =>
      cases applied
      exact .of genuine.data genuine.selector (genuine.extras.erase key) genuine.clip
  | clip clip =>
      cases applied
      exact .of genuine.data genuine.selector genuine.extras
        fun given found => clips given (Option.mem_toList.2 found)
  | fillIn template allow =>
      cases applied
      exact genuine.fillIn (intents template (List.mem_singleton_self template)) allow
  | cloneFilter =>
      cases applied
      refine .of genuine.data genuine.selector Bundle.isGenuine_empty ?_
      rintro _ ⟨⟩
  | matchingView =>
      cases applied
      cases selected : intent.selector with
      | none => simpa [Intent.matchingView, selected] using genuine
      | some other => simpa [Intent.matchingView, selected] using genuine.selector other selected

end Changes

section Links

/-- The values that links write are of simple types. -/
theorem isPlain_of_readTagged? {tag : Char} {text : String} {value : Value}
    (read : readTagged? tag text = some (some value)) : value.isPlain = true := by
  rw [readTagged?.eq_def] at read
  dsimp only at read
  grind [Value.isPlain, Option.map_eq_some_iff]

theorem IsGenuine.changed {change : Intent → Intent} (genuine : intent.IsGenuine)
    (keeps : Parsed.Keeps change) : (change intent).IsGenuine := by
  have extras : (change intent).extras.IsGenuine := by
    rcases keeps.extras intent with same | ⟨tag, text, key, value, read, put⟩
    · exact same ▸ genuine.extras
    · rw [put]
      exact genuine.extras.insert (.plain (isPlain_of_readTagged? read)) key
  apply IsGenuine.of _ _ extras
  · exact keeps.clip intent ▸ genuine.clip
  · exact keeps.data intent ▸ genuine.data
  · exact keeps.selector intent ▸ genuine.selector

theorem IsGenuine.restricted (genuine : intent.IsGenuine) (flags : LinkFlags) :
    (restricted flags intent).IsGenuine := by
  rw [Intent.restricted]
  split
  · exact genuine
  · exact genuine.congr rfl rfl rfl rfl

theorem isRead_of_readData? {characters : Option (List Char)} {data : Option Uri}
    (read : readData? characters = .ok data) : ∀ uri ∈ data, uri.IsRead := by
  cases characters with
  | none =>
      cases read
      rintro _ ⟨⟩
  | some characters =>
      cases parsed : Uri.parse (String.ofList characters) with
      | error cause => simp [readData?, parsed, Except.map] at read
      | ok uri =>
          simp only [readData?, parsed, Except.map, Except.ok.injEq] at read
          subst read
          rintro _ ⟨⟩
          exact ⟨_, parsed⟩

/-- Whether the intent and the selector that entries describe are genuine. -/
structure Parsed.IsGenuine (parsed : Parsed) : Prop where
  intent : parsed.intent.IsGenuine
  selector : ∀ selector ∈ parsed.selector, selector.IsGenuine

namespace Parsed

variable {parsed after : Parsed} {entries : List Char} {base : Intent}

theorem IsGenuine.update {change : Intent → Intent} (genuine : parsed.IsGenuine)
    (keeps : Keeps change) : (parsed.update change).IsGenuine := by
  rcases parsed with ⟨intent, _ | selector, scheme⟩
  · exact ⟨genuine.intent.changed keeps, genuine.selector⟩
  · refine ⟨genuine.intent, ?_⟩
    rintro _ ⟨⟩
    exact (genuine.selector selector rfl).changed keeps

theorem IsGenuine.applyScheme {value : String} (genuine : parsed.IsGenuine)
    (applied : parsed.applyScheme value = .ok after) : after.IsGenuine := by
  rw [Parsed.applyScheme] at applied
  split at applied
  · cases applied
    exact ⟨genuine.intent, genuine.selector⟩
  · rename_i selector selected
    cases read : Uri.parse (value ++ ":") with
    | error cause => simp [read, Except.map] at applied
    | ok data =>
        simp only [read, Except.map, Except.ok.injEq] at applied
        subst applied
        refine ⟨genuine.intent, ?_⟩
        rintro _ ⟨⟩
        refine (genuine.selector selector selected).withData ?_ rfl rfl rfl
        rintro _ ⟨⟩
        exact ⟨_, read⟩

theorem isGenuine_of_readFragment (genuine : base.IsGenuine)
    (read : readFragment entries base = .ok parsed) : parsed.IsGenuine := by
  refine holds_applyAll (motive := IsGenuine) ?selects ?reads ⟨genuine, by rintro _ ⟨⟩⟩ read
  case selects =>
    intro _ genuine
    refine ⟨genuine.intent, ?_⟩
    rintro _ ⟨⟩
    exact isGenuine_empty
  case reads =>
    intro _ _ _ _ genuine applied
    exact holds_applyText (motive := IsGenuine) (fun _ keeps => genuine.update keeps)
      (fun _ _ applied => genuine.applyScheme applied) applied

theorem IsGenuine.finish (genuine : parsed.IsGenuine) (flags : LinkFlags) :
    (parsed.finish flags).IsGenuine := by
  have own := genuine.intent.restricted flags
  simp only [Parsed.finish]
  split
  · exact own
  · rename_i selector selected
    split
    · exact own
    · refine .of own.data ?_ own.extras own.clip
      rintro _ ⟨⟩
      exact (genuine.selector selector selected).restricted flags

end Parsed

theorem isGenuine_ofAction (action : String) : (ofAction action).IsGenuine :=
  isGenuine_empty.congr rfl rfl rfl rfl

theorem isGenuine_of_ofPlainLink {text : String} (read : ofPlainLink text flags = .ok intent) :
    intent.IsGenuine := by
  cases cut : cutFragment? text.toList with
  | none =>
      rcases (ofPlainLink_eq_ok_iff_of_none cut).1 read with ⟨data, parsed, rfl⟩
      refine (isGenuine_ofAction Action.view).withData ?_ rfl rfl rfl
      rintro _ ⟨⟩
      exact ⟨text, parsed⟩
  | some parts =>
      rcases (ofPlainLink_eq_ok_iff cut).1 read with ⟨parsed, data, fragment, found, rfl⟩
      have genuine := Parsed.isGenuine_of_readFragment (isGenuine_ofAction Action.view) fragment
      have finished := genuine.finish flags
      cases data with
      | none => exact finished.congr rfl rfl rfl rfl
      | some data => exact finished.withData (isRead_of_readData? found) rfl rfl rfl

theorem isGenuine_of_readAppEntries {entries : Option (List Char)} {data : Option Uri}
    (read : readAppEntries entries data flags = .ok intent) : intent.IsGenuine := by
  cases entries with
  | none =>
      cases read
      exact isGenuine_ofAction _
  | some entries =>
      simp only [readAppEntries] at read
      generalize based : ofAction (if data.isSome then Action.view else Action.main) = base at read
      have genuineBase : base.IsGenuine := based ▸ isGenuine_ofAction _
      cases fragment : readFragment entries base with
      | error cause => simp [fragment, Except.map] at read
      | ok parsed =>
          simp only [fragment, Except.map, Except.ok.injEq] at read
          subst read
          exact (Parsed.isGenuine_of_readFragment genuineBase fragment).finish flags

/-- A link is read with URIs and values of simple types. -/
theorem isGenuine_of_ofLink {text : String} (read : ofLink text flags = .ok intent) :
    intent.IsGenuine := by
  rw [ofLink] at read
  split at read
  · cases read
  split at read
  · rcases (ofAppLink_eq_ok_iff rfl).1 read with
      ⟨_, package, data, described, _, _, _, found, entriesRead, rfl⟩
    have genuine := isGenuine_of_readAppEntries entriesRead
    rw [Intent.withPackage]
    split
    · exact genuine.withData (isRead_of_readData? found) rfl rfl rfl
    · exact genuine.withData (isRead_of_readData? found) rfl rfl rfl
  · exact isGenuine_of_ofPlainLink read

end Links

end Intent

section Documents

theorem Uri.isRead_of_ofJson? {json : Json} {uri : Uri} (read : Uri.ofJson? json = some uri) :
    uri.IsRead := by
  cases json with
  | string text =>
      rw [Uri.ofJson?, Uri.parse?] at read
      cases parsed : Uri.parse text with
      | error cause => simp [parsed, Except.toOption] at read
      | ok found =>
          simp only [parsed, Except.toOption, Option.some.injEq] at read
          exact ⟨text, read ▸ parsed⟩
  | _ => cases read

theorem Value.isGenuine_of_plainOfJson? {type : String} {content : Json} :
    ∀ value ∈ Value.plainOfJson? type content, value.IsGenuine := by
  have plain {α : Type} (content : Option α) (make : α → Value)
      (isPlain : ∀ given, (make given).isPlain = true) :
      ∀ value ∈ content.map make, value.IsGenuine := by
    intro value found
    obtain ⟨given, _, rfl⟩ := Option.map_eq_some_iff.1 found
    exact .plain (isPlain given)
  have either {condition : Prop} [Decidable condition] {yes no : Option Value}
      (fromYes : ∀ value ∈ yes, value.IsGenuine) (fromNo : ∀ value ∈ no, value.IsGenuine) :
      ∀ value ∈ if condition then yes else no, value.IsGenuine := by
    by_cases given : condition
    · rwa [if_pos given]
    · rwa [if_neg given]
  rw [Value.plainOfJson?]
  -- the types of simple values come before that of URIs
  iterate 11 refine either (plain _ _ fun _ => rfl) ?_
  refine either ?_ ?_
  · intro value found
    obtain ⟨uri, readUri, rfl⟩ := Option.map_eq_some_iff.1 found
    exact .uri (Uri.isRead_of_ofJson? readUri)
  · rintro _ ⟨⟩

section Nested

variable {decode : Json → Option Intent} {json : Json}

theorem ClipItem.isGenuine_of_decode? {item : ClipItem}
    (genuine : ∀ json intent, decode json = some intent → intent.IsGenuine)
    (read : ClipItem.decode? decode json = some item) : item.IsGenuine := by
  simp only [ClipItem.decode?, Option.bind_eq_bind, Option.bind_eq_some_iff] at read
  obtain ⟨slots, _, read⟩ := read
  split at read
  · simp only [Option.bind_eq_some_iff, Option.some.injEq] at read
    obtain ⟨_, _, uri, readUri, intent, readIntent, rfl⟩ := read
    constructor
    · intro uri given
      obtain ⟨json, decoded⟩ := Json.Slot.of_optional readUri uri given
      exact Uri.isRead_of_ofJson? decoded
    · intro intent given
      obtain ⟨json, decoded⟩ := Json.Slot.of_optional readIntent intent given
      exact genuine json intent decoded
  · cases read

theorem Clip.isGenuine_of_decode? {clip : Clip}
    (genuine : ∀ json intent, decode json = some intent → intent.IsGenuine)
    (read : Clip.decode? decode json = some clip) : clip.IsGenuine := by
  simp only [Clip.decode?, Option.bind_eq_bind, Option.bind_eq_some_iff] at read
  obtain ⟨slots, _, read⟩ := read
  split at read
  · simp only [Option.bind_eq_some_iff, Option.some.injEq] at read
    obtain ⟨_, _, _, _, items, readItems, rfl⟩ := read
    constructor
    intro item member
    obtain ⟨list, readList⟩ := Json.Slot.of_required readItems
    obtain ⟨json, decoded⟩ := Json.of_list? readList item member
    exact ClipItem.isGenuine_of_decode? genuine decoded
  · cases read

end Nested

mutual

/-- What is read of a document is genuine, since its parts are. -/
theorem Intent.isGenuine_of_decode? {isHeld : Bool} {depth : Nat} {json : Json} {intent : Intent}
    (read : Intent.decode? isHeld depth json = some intent) : intent.IsGenuine := by
  cases depth with
  | zero => cases read
  | succ depth =>
      have nested (json : Json) (other : Intent)
          (read : Intent.decode? isHeld depth json = some other) : other.IsGenuine :=
        Intent.isGenuine_of_decode? read
      rw [Intent.decode?] at read
      obtain ⟨slots, _, read⟩ := Option.bind_eq_some_iff.1 read
      split at read
      · obtain ⟨_, _, read⟩ := Option.bind_eq_some_iff.1 read
        obtain ⟨data, readData, read⟩ := Option.bind_eq_some_iff.1 read
        iterate 5 obtain ⟨_, _, read⟩ := Option.bind_eq_some_iff.1 read
        obtain ⟨selector, readSelector, read⟩ := Option.bind_eq_some_iff.1 read
        obtain ⟨_, _, read⟩ := Option.bind_eq_some_iff.1 read
        obtain ⟨extras, readExtras, read⟩ := Option.bind_eq_some_iff.1 read
        obtain ⟨clip, readClip, read⟩ := Option.bind_eq_some_iff.1 read
        obtain ⟨_, _, read⟩ := Option.bind_eq_some_iff.1 read
        cases read
        obtain ⟨json, decoded⟩ := Json.Slot.of_required readExtras
        refine .of ?_ ?_ (Bundle.isGenuine_of_decode? decoded) ?_
        · intro uri given
          obtain ⟨json, decoded⟩ := Json.Slot.of_optional readData uri given
          exact Uri.isRead_of_ofJson? decoded
        · intro other given
          obtain ⟨json, decoded⟩ := Json.Slot.of_optional readSelector other given
          exact nested json other decoded
        · intro clip given
          obtain ⟨json, decoded⟩ := Json.Slot.of_optional readClip clip given
          exact Clip.isGenuine_of_decode? nested decoded
      · cases read

theorem Bundle.isGenuine_of_decode? {isHeld : Bool} {depth : Nat} {json : Json} {bundle : Bundle}
    (read : Bundle.decode? isHeld depth json = some bundle) : bundle.IsGenuine := by
  cases depth with
  | zero => cases read
  | succ depth =>
      cases json with
      | object members =>
          simp only [Bundle.decode?, Bundle.ofMembers?, Option.bind_eq_bind,
            Option.bind_eq_some_iff, Option.some.injEq] at read
          obtain ⟨entries, readEntries, rfl⟩ := read
          apply Bundle.isGenuine_ofList
          intro entry given
          obtain ⟨member, _, decoded⟩ := Json.of_mapM readEntries entry given
          simp only [Option.bind_eq_some_iff, Option.some.injEq] at decoded
          obtain ⟨value, decoded, rfl⟩ := decoded
          exact Value.isGenuine_of_decode? decoded
      | _ => cases read

theorem Value.isGenuine_of_decode? {isHeld : Bool} {depth : Nat} {json : Json} {value : Value}
    (read : Value.decode? isHeld depth json = some value) : value.IsGenuine := by
  cases depth with
  | zero => cases read
  | succ depth =>
      simp only [Value.decode?, Option.bind_eq_bind, Option.bind_eq_some_iff] at read
      obtain ⟨tagged, _, read⟩ := read
      split at read
      · obtain ⟨intent, decoded, rfl⟩ := Option.map_eq_some_iff.1 read
        exact .intent (Intent.isGenuine_of_decode? decoded)
      split at read
      · obtain ⟨bundle, decoded, rfl⟩ := Option.map_eq_some_iff.1 read
        exact .bundle (Bundle.isGenuine_of_decode? decoded)
      · exact Value.isGenuine_of_plainOfJson? value read

end

end Documents

end IntentRouting
