import IntentRouting.Intent.Same
import IntentRouting.Proofs.Flags.Text
import IntentRouting.Proofs.Intent.Crafting
import IntentRouting.Proofs.Json.Layout

/-!
# Intents that come back from their documents

An intent is written as a document and read again. Its numbers come back exactly unless they are
floating-point ones, so an intent is exact if it has none of these, at any depth (`Intent.isExact`). What
is read of the document of an exact intent is the same intent, down to the order of its extras and the
flags without a name, provided that its URIs were read and the names in its bundles differ
(`Intent.IsGenuine.isKept`). This holds of whatever a program makes (`Intent.IsCrafted.comes_back`).
-/

namespace IntentRouting

section Exact

mutual

/-- Whether an intent has no floating-point number, at any depth. -/
def Intent.isExact : Intent → Bool
  | ⟨_, _, _, _, _, _, _, selector, _, extras, clip, _⟩ =>
    Intent.isExactOption selector && extras.isExact && Clip.isExactOption clip

def Intent.isExactOption : Option Intent → Bool
  | none => true
  | some intent => intent.isExact

def Bundle.isExact : Bundle → Bool
  | ⟨entries⟩ => Bundle.areExact entries

def Bundle.areExact : List (String × Value) → Bool
  | [] => true
  | (_, value) :: entries => value.isExact && Bundle.areExact entries

def Value.isExact : Value → Bool
  | .float _ | .double _ => false
  | .intent value => value.isExact
  | .bundle value => value.isExact
  | _ => true

def Clip.isExactOption : Option Clip → Bool
  | none => true
  | some clip => clip.isExact

def Clip.isExact : Clip → Bool
  | ⟨_, _, items⟩ => Clip.areExact items

def Clip.areExact : List ClipItem → Bool
  | [] => true
  | item :: items => item.isExact && Clip.areExact items

def ClipItem.isExact : ClipItem → Bool
  | ⟨_, _, intent⟩ => Intent.isExactOption intent

end

theorem Intent.isExactOption_iff {intent : Option Intent} :
    Intent.isExactOption intent = true ↔ ∀ other ∈ intent, other.isExact = true := by
  cases intent <;> simp [Intent.isExactOption]

theorem Clip.isExactOption_iff {clip : Option Clip} :
    Clip.isExactOption clip = true ↔ ∀ other ∈ clip, other.isExact = true := by
  cases clip <;> simp [Clip.isExactOption]

theorem Intent.isExact_iff {intent : Intent} : intent.isExact = true ↔
    (∀ other ∈ intent.selector, other.isExact = true) ∧ intent.extras.isExact = true ∧
      ∀ clip ∈ intent.clip, clip.isExact = true := by
  cases intent
  simp [Intent.isExact, Intent.isExactOption_iff, Clip.isExactOption_iff, and_assoc]

theorem Bundle.isExact_iff {bundle : Bundle} :
    bundle.isExact = true ↔ ∀ entry ∈ bundle.entries, entry.2.isExact = true := by
  rcases bundle with ⟨entries⟩
  rw [Bundle.isExact]
  induction entries with
  | nil => simp [Bundle.areExact]
  | cons entry entries ih => simp [Bundle.areExact, ih]

theorem Clip.isExact_iff {clip : Clip} :
    clip.isExact = true ↔ ∀ item ∈ clip.items, item.isExact = true := by
  rcases clip with ⟨_, _, items⟩
  rw [Clip.isExact]
  induction items with
  | nil => simp [Clip.areExact]
  | cons item items ih => simp [Clip.areExact, ih]

theorem ClipItem.isExact_iff {item : ClipItem} :
    item.isExact = true ↔ ∀ intent ∈ item.intent, intent.isExact = true := by
  cases item
  simp [ClipItem.isExact, Intent.isExactOption_iff]

end Exact

section Writing

theorem Intent.optionToJson_eq (intent : Option Intent) :
    Intent.optionToJson intent = .ofOption Intent.toJson intent := by
  cases intent <;> rfl

theorem Clip.optionToJson_eq (clip : Option Clip) :
    Clip.optionToJson clip = .ofOption Clip.toJson clip := by
  cases clip <;> rfl

theorem Intent.toJson_eq (intent : Intent) : intent.toJson = .object [
    ("action", .optionalString intent.action), ("data", .ofOption Uri.toJson intent.data),
    ("mime_type", .optionalString intent.mimeType),
    ("identifier", .optionalString intent.identifier), ("categories", intent.categories.toJson),
    ("package", .optionalString intent.package),
    ("component", .ofOption Component.toJson intent.component),
    ("selector", .ofOption Intent.toJson intent.selector), ("flags", intent.flags.toJson),
    ("extras", intent.extras.toJson), ("clip_data", .ofOption Clip.toJson intent.clip),
    ("source_bounds", .ofOption Bounds.toJson intent.bounds)] := by
  cases intent
  rw [Intent.toJson, Intent.optionToJson_eq, Clip.optionToJson_eq]

theorem Bundle.toJson_eq (bundle : Bundle) :
    bundle.toJson = .object (bundle.entries.map fun entry => (entry.1, entry.2.toJson)) := by
  rcases bundle with ⟨entries⟩
  rw [Bundle.toJson, Json.object.injEq]
  induction entries with
  | nil => rfl
  | cons entry entries ih => simp [Bundle.entriesToJson, ih]

theorem Clip.toJson_eq (clip : Clip) : clip.toJson = .object [
    ("label", .optionalString clip.label), ("mime_types", .strings clip.mimeTypes),
    ("items", .list ClipItem.toJson clip.items)] := by
  rcases clip with ⟨label, mimeTypes, items⟩
  have written : Clip.itemsToJson items = items.map ClipItem.toJson := by
    induction items with
    | nil => rfl
    | cons item items ih => simp [Clip.itemsToJson, ih]
  rw [Clip.toJson, written, Json.list]

theorem ClipItem.toJson_eq (item : ClipItem) : item.toJson = .object [
    ("text", .optionalString item.text), ("uri", .ofOption Uri.toJson item.uri),
    ("intent", .ofOption Intent.toJson item.intent)] := by
  cases item
  rw [ClipItem.toJson, Intent.optionToJson_eq]

end Writing

section Fields

namespace Integer

/-- A number of some bits is one of 64 bits. -/
theorem Bounds.Contains.widen {bits : Nat} {n : Int} (within : (Bounds.signed bits).Contains n)
    (small : bits ≤ 64) : (Bounds.signed 64).Contains n := by
  have wider : Nat.pow 2 (bits - 1) ≤ Nat.pow 2 (64 - 1) :=
    Nat.pow_le_pow_right (by decide) (by omega)
  obtain ⟨low, high⟩ := within
  simp only [Bounds.signed, Bounds.Contains, Int.ofNat_eq_natCast] at low high ⊢
  omega

end Integer

namespace Json

theorem int?_signed {bits : Nat} {n : Int} (within : (Integer.Bounds.signed bits).Contains n)
    (small : bits ≤ 64) : (Json.int n).int? (.signed bits) = some n :=
  int?_int within (within.widen small)

theorem isExact_ofOption {α : Type} {encode : α → Json} {field : Option α}
    (exact : ∀ value ∈ field, (encode value).IsExact) : (ofOption encode field).IsExact := by
  cases field with
  | none => exact .null
  | some value => exact exact value rfl

theorem isExact_optionalString (text : Option String) : (optionalString text).IsExact :=
  isExact_ofOption fun text _ => .string text

theorem isExact_list {α : Type} {encode : α → Json} {values : List α}
    (exact : ∀ value ∈ values, (encode value).IsExact) : (Json.list encode values).IsExact := by
  refine .array fun item member => ?_
  obtain ⟨value, given, rfl⟩ := List.mem_map.1 member
  exact exact value given

theorem isExact_strings (texts : List String) : (strings texts).IsExact :=
  isExact_list fun text _ => .string text

end Json

theorem Uri.ofJson?_toJson {uri : Uri} (read : uri.IsRead) : Uri.ofJson? uri.toJson = some uri := by
  rw [Uri.toJson, Uri.ofJson?, Uri.parse?, read.parse_text]
  rfl

theorem Component.ofJson?_toJson (component : Component) :
    Component.ofJson? component.toJson = some component := by
  have slots : component.toJson.slots? ["package", "class"] =
      some [.given (.string component.package), .given (.string component.className)] :=
    Json.slots?_object (by decide) rfl
  simp [Component.ofJson?, slots, Json.Slot.required, Json.string?]

theorem FlagSet.ofJson?_toJson (flags : IntentFlags) : FlagSet.ofJson? flags.toJson = some flags :=
  FlagSet.parse?_text IntentFlag.isLegible flags

theorem Categories.ofJson?_toJson (categories : Categories) :
    Categories.ofJson? categories.toJson = some categories := by
  rw [Categories.ofJson?, Categories.toJson, Json.list?_strings, Option.map_some, ofList,
    foldl_insert_names]

namespace Bounds

theorem isSide (side : Int32) : sides.Contains side.toInt :=
  ⟨side.le_toInt, Int.le_sub_one_of_lt side.toInt_lt⟩

theorem sideOfJson?_int (side : Int32) : sideOfJson? (.int side.toInt) = some side := by
  rw [sideOfJson?, Json.int?_int (isSide side) ((isSide side).widen (by decide)), Option.map_some,
    Int32.ofInt_toInt]

theorem ofJson?_toJson (bounds : Bounds) : ofJson? bounds.toJson = some bounds := by
  have slots : bounds.toJson.slots? ["left", "top", "right", "bottom"] =
      some [.given (.int bounds.left.toInt), .given (.int bounds.top.toInt),
        .given (.int bounds.right.toInt), .given (.int bounds.bottom.toInt)] :=
    Json.slots?_object (by decide) rfl
  simp [ofJson?, slots, Json.Slot.required, sideOfJson?_int]

end Bounds

end Fields

section Kept

/-- Whether something is written exactly, is the same as itself and is read back from its document, by
any reader that goes as deep as the document is nested. -/
structure IsKept {α : Type} (write : α → Json) (read : Bool → Nat → Json → Option α)
    (same : α → α → Bool) (given : α) : Prop where
  exact : (write given).IsExact
  same : same given given = true
  read : ∀ isHeld depth, (write given).depth ≤ depth →
    read isHeld depth (write given) = some given

abbrev Intent.IsKept : Intent → Prop :=
  IntentRouting.IsKept Intent.toJson Intent.decode? Intent.same

abbrev Bundle.IsKept : Bundle → Prop :=
  IntentRouting.IsKept Bundle.toJson Bundle.decode? Bundle.same

abbrev Value.IsKept : Value → Prop := IntentRouting.IsKept Value.toJson Value.decode? Value.same

abbrev Clip.IsKept : Clip → Prop :=
  IntentRouting.IsKept Clip.toJson (fun isHeld depth => Clip.decode? (Intent.decode? isHeld depth))
    Clip.same

abbrev ClipItem.IsKept : ClipItem → Prop :=
  IntentRouting.IsKept ClipItem.toJson
    (fun isHeld depth => ClipItem.decode? (Intent.decode? isHeld depth)) ClipItem.same

theorem IsKept.optional {α : Type} {write : α → Json} {read : Bool → Nat → Json → Option α}
    {same : α → α → Bool} {field : Option α} (kept : ∀ value ∈ field, IsKept write read same value)
    (someValue : ∀ value, write value ≠ .null) {depth : Nat}
    (within : (Json.ofOption write field).depth ≤ depth) (isHeld : Bool) :
    Json.Slot.optional (read isHeld depth) (.given (.ofOption write field)) = some field := by
  apply Json.Slot.optional_ofOption someValue
  intro value given
  apply (kept value given).read
  rwa [Option.mem_def.1 given] at within

theorem Uri.optional_toJson {field : Option Uri} (read : ∀ uri ∈ field, uri.IsRead) :
    Json.Slot.optional Uri.ofJson? (.given (.ofOption Uri.toJson field)) = some field :=
  Json.Slot.optional_ofOption (by simp [Uri.toJson]) fun uri given => Uri.ofJson?_toJson (read uri given)

theorem Intent.toJson_ne_null (intent : Intent) : intent.toJson ≠ .null := by
  simp [Intent.toJson_eq]

theorem Intent.sameOptional_self {field : Option Intent} (kept : ∀ intent ∈ field, intent.IsKept) :
    Intent.sameOptional field field = true := by
  cases field with
  | none => simp [Intent.sameOptional]
  | some intent => simp [Intent.sameOptional, (kept intent rfl).same]

theorem ClipItem.isKept {item : ClipItem} (uri : ∀ uri ∈ item.uri, uri.IsRead)
    (intent : ∀ intent ∈ item.intent, intent.IsKept) : item.IsKept where
  exact := by
    rw [ClipItem.toJson_eq]
    apply Json.IsExact.object
    simp only [List.forall_mem_cons, List.not_mem_nil, false_implies, implies_true, and_true]
    refine ⟨Json.isExact_optionalString _, Json.isExact_ofOption ?_, Json.isExact_ofOption ?_⟩
    · exact fun uri _ => .string uri.text
    · exact fun other given => (intent other given).exact
  same := by
    rcases item with ⟨text, uri, intent'⟩
    simp [ClipItem.same, Intent.sameOptional_self intent]
  read := by
    intro isHeld depth within
    have slots : item.toJson.slots? ["text", "uri", "intent"] =
        some [.given (.optionalString item.text), .given (.ofOption Uri.toJson item.uri),
          .given (.ofOption Intent.toJson item.intent)] := by
      rw [ClipItem.toJson_eq]
      exact Json.slots?_object (by decide) rfl
    rw [ClipItem.toJson_eq] at within
    have nested := Json.depth_lt_of_object within
    simp only [List.forall_mem_cons] at nested
    have readIntent := IsKept.optional intent Intent.toJson_ne_null (Nat.le_of_lt nested.2.2.1) isHeld
    cases item
    simp [ClipItem.decode?, slots, Json.Slot.optional_string, Uri.optional_toJson uri, readIntent]

theorem Clip.isKept {clip : Clip} (items : ∀ item ∈ clip.items, item.IsKept) : clip.IsKept where
  exact := by
    rw [Clip.toJson_eq]
    apply Json.IsExact.object
    simp only [List.forall_mem_cons, List.not_mem_nil, false_implies, implies_true, and_true]
    exact ⟨Json.isExact_optionalString _, Json.isExact_strings _,
      Json.isExact_list fun item member => (items item member).exact⟩
  same := by
    rcases clip with ⟨label, mimeTypes, items'⟩
    have own : Clip.sameItems items' items' = true := by
      induction items' with
      | nil => simp [Clip.sameItems]
      | cons item items' ih =>
          simp only [List.forall_mem_cons] at items
          simp [Clip.sameItems, (items.1).same, ih items.2]
    simp [Clip.same, own]
  read := by
    intro isHeld depth within
    have slots : clip.toJson.slots? ["label", "mime_types", "items"] =
        some [.given (.optionalString clip.label), .given (.strings clip.mimeTypes),
          .given (.list ClipItem.toJson clip.items)] := by
      rw [Clip.toJson_eq]
      exact Json.slots?_object (by decide) rfl
    rw [Clip.toJson_eq] at within
    have nested := Json.depth_lt_of_object within
    simp only [List.forall_mem_cons] at nested
    have readItems : (Json.list ClipItem.toJson clip.items).list?
        (ClipItem.decode? (Intent.decode? isHeld depth)) = some clip.items := by
      apply Json.list?_list
      intro item member
      apply (items item member).read
      have inside := Json.depth_lt_of_array (Nat.le_of_lt nested.2.2.1) item.toJson
      exact Nat.le_of_lt (inside (List.mem_map_of_mem member))
    cases clip
    simp [Clip.decode?, slots, Json.Slot.optional_string, Json.Slot.required, Json.list?_strings,
      readItems]

theorem Bundle.isKept {bundle : Bundle} (distinct : bundle.Distinct)
    (values : ∀ entry ∈ bundle.entries, entry.2.IsKept) : bundle.IsKept where
  exact := by
    rw [Bundle.toJson_eq]
    apply Json.IsExact.object
    intro member given
    obtain ⟨entry, member, rfl⟩ := List.mem_map.1 given
    exact (values entry member).exact
  same := by
    have among (entries : List (String × Value)) (inside : ∀ entry ∈ entries, entry ∈ bundle.entries) :
        Bundle.sameEntries entries bundle = true := by
      induction entries with
      | nil => simp [Bundle.sameEntries]
      | cons entry entries ih =>
          rw [List.forall_mem_cons] at inside
          have found : bundle.get? entry.1 = some entry.2 := lookup_of_nodup distinct inside.1
          have sameValue := (values entry inside.1).same
          rcases entry with ⟨key, value⟩
          simp_all [Bundle.sameEntries]
    have own := among bundle.entries fun _ member => member
    cases bundle
    simpa [Bundle.same] using own
  read := by
    intro isHeld depth within
    rw [Bundle.toJson_eq] at within ⊢
    have nested := Json.depth_lt_of_object within
    obtain ⟨depth, rfl⟩ := Nat.exists_eq_add_one.2 (Nat.zero_lt_of_lt within)
    rw [Bundle.decode?, Bundle.ofMembers?, Json.mapM_map]
    · have built := Bundle.ofList_of_nodup distinct
      cases bundle
      simpa using built
    · intro entry member
      have inside := nested (entry.1, entry.2.toJson) (List.mem_map_of_mem member)
      simp [(values entry member).read isHeld depth (Nat.le_of_lt_succ inside)]

theorem Value.decode?_tagged {value : Value} {type : String} {content : Json}
    (back : Value.plainOfJson? type content = some value) (isHeld : Bool) (depth : Nat) :
    Value.decode? isHeld (depth + 1) (Value.tagged type content) = some value := by
  have notIntent : type ≠ "intent" := by
    rintro rfl
    cases back
  have notBundle : type ≠ "nested" := by
    rintro rfl
    cases back
  simp [Value.decode?, Value.tagged, Json.Tagged.ofJson?_object, notIntent, notBundle, back]

theorem isExact_tagged {type : String} {content : Json} (exact : content.IsExact) :
    (Value.tagged type content).IsExact := by
  apply Json.IsExact.object
  simp only [List.forall_mem_cons, List.not_mem_nil, false_implies, implies_true, and_true]
  exact ⟨.string type, exact⟩

theorem isOctet (octet : UInt8) : octetBounds.Contains (octet.toNat : Int) := by
  have below : octet.toNat < 256 := octet.toNat_lt
  constructor
  · exact Int.natCast_nonneg _
  · change (octet.toNat : Int) ≤ 255
    omega

theorem fits_of_isOctet {n : Int} (octet : octetBounds.Contains n) :
    (Integer.Bounds.signed 64).Contains n := by
  have low : 0 ≤ n := octet.1
  have high : n ≤ 255 := octet.2
  constructor
  · change -9223372036854775808 ≤ n
    omega
  · change n ≤ 9223372036854775807
    omega

theorem octetOfJson?_nat (octet : UInt8) : octetOfJson? (.nat octet.toNat) = some octet := by
  rw [octetOfJson?, Json.nat, Json.int?_int (isOctet octet) (fits_of_isOctet (isOctet octet))]
  simp

section Values

variable {value : Value} {type : String} {content : Json}

theorem depth_lt_of_tagged {depth : Nat} (within : (Value.tagged type content).depth ≤ depth) :
    content.depth < depth :=
  Json.depth_lt_of_object within ("value", content) (.tail _ (.head _))

/-- A value comes back if it is read from its type and its content, one level further down. -/
theorem Value.isKept_of_tagged (written : value.toJson = Value.tagged type content)
    (exact : content.IsExact) (same : value.same value = true)
    (read : ∀ isHeld depth, content.depth ≤ depth →
      Value.decode? isHeld (depth + 1) (Value.tagged type content) = some value) :
    value.IsKept where
  exact := written ▸ isExact_tagged exact
  same := same
  read := by
    intro isHeld depth within
    rw [written] at within ⊢
    have nested := depth_lt_of_tagged within
    obtain ⟨depth, rfl⟩ := Nat.exists_eq_add_one.2 (Nat.zero_lt_of_lt nested)
    exact read isHeld depth (Nat.le_of_lt_succ nested)

theorem Value.isKept_of_content (written : value.toJson = Value.tagged type content)
    (exact : content.IsExact) (same : value.same value = true)
    (back : Value.plainOfJson? type content = some value) : value.IsKept :=
  isKept_of_tagged written exact same fun isHeld depth _ => decode?_tagged back isHeld depth

theorem Value.isKept_of_number {bits : Nat} {n : Int}
    (within : (Integer.Bounds.signed bits).Contains n) (small : bits ≤ 64)
    (written : value.toJson = Value.tagged type (.int n)) (same : value.same value = true)
    (back : (Json.int n).int? (.signed bits) = some n →
      Value.plainOfJson? type (.int n) = some value) : value.IsKept :=
  isKept_of_content written (.int n (within.widen small)) same (back (Json.int?_signed within small))

theorem Value.isKept_of_plain (plain : value.isPlain = true) (exact : value.isExact = true) :
    value.IsKept := by
  have same : value.same value = true := by
    cases value with
    | float | double | uri | intent | bundle => simp_all [Value.isPlain, Value.isExact]
    | _ => simp [Value.same]
  cases value with
  | float | double | uri | intent | bundle => simp_all [Value.isPlain, Value.isExact]
  | bool value =>
      apply isKept_of_content (by rw [toJson]) (.bool value) same
      rfl
  | byte value =>
      have within : (Integer.Bounds.signed 8).Contains value.toInt :=
        ⟨value.le_toInt, Int.le_sub_one_of_lt value.toInt_lt⟩
      apply isKept_of_number within (by decide) (by rw [toJson]) same
      intro back
      simp [plainOfJson?, byteBounds, back]
  | short value =>
      have within : (Integer.Bounds.signed 16).Contains value.toInt :=
        ⟨value.le_toInt, Int.le_sub_one_of_lt value.toInt_lt⟩
      apply isKept_of_number within (by decide) (by rw [toJson]) same
      intro back
      simp [plainOfJson?, shortBounds, back]
  | char value =>
      apply isKept_of_content (by rw [toJson]) (.string _) same
      simp [plainOfJson?, charOfJson?]
  | int value =>
      have within : (Integer.Bounds.signed 32).Contains value.toInt :=
        ⟨value.le_toInt, Int.le_sub_one_of_lt value.toInt_lt⟩
      apply isKept_of_number within (by decide) (by rw [toJson]) same
      intro back
      simp [plainOfJson?, intBounds, back]
  | long value =>
      have within : (Integer.Bounds.signed 64).Contains value.toInt :=
        ⟨value.le_toInt, Int.le_sub_one_of_lt value.toInt_lt⟩
      apply isKept_of_number within (by decide) (by rw [toJson]) same
      intro back
      simp [plainOfJson?, longBounds, back]
  | string value =>
      apply isKept_of_content (by rw [toJson]) (.string value) same
      rfl
  | blob value =>
      apply isKept_of_content (by rw [toJson]) _ same
      · simp [plainOfJson?, Json.list?_list fun octet _ => octetOfJson?_nat octet]
      · exact Json.isExact_list fun octet _ => .int _ (fits_of_isOctet (isOctet octet))
  | strings value =>
      apply isKept_of_content (by rw [toJson]) (Json.isExact_strings value) same
      simp [plainOfJson?, Json.list?_strings]

theorem Value.isKept_uri {uri : Uri} (read : uri.IsRead) : Value.IsKept (.uri uri) := by
  have written : (Value.uri uri).toJson = tagged "uri" uri.toJson := by
    rw [toJson]
  apply isKept_of_content written (.string uri.text) (by simp [same])
  simpa [plainOfJson?] using Uri.ofJson?_toJson read

theorem Value.isKept_intent {intent : Intent} (kept : intent.IsKept) :
    Value.IsKept (.intent intent) := by
  apply isKept_of_tagged (by rw [toJson]) kept.exact (by simp [same, kept.same])
  intro isHeld depth within
  have back := kept.read isHeld depth within
  simp [decode?, tagged, Json.Tagged.ofJson?_object, back]

theorem Value.isKept_bundle {bundle : Bundle} (kept : bundle.IsKept) :
    Value.IsKept (.bundle bundle) := by
  apply isKept_of_tagged (by rw [toJson]) kept.exact (by simp [same, kept.same])
  intro isHeld depth within
  have back := kept.read isHeld depth within
  simp [decode?, tagged, Json.Tagged.ofJson?_object, back]

end Values

theorem Clip.sameOptional_self {field : Option Clip} (kept : ∀ clip ∈ field, clip.IsKept) :
    Clip.sameOptional field field = true := by
  cases field with
  | none => simp [Clip.sameOptional]
  | some clip => simp [Clip.sameOptional, (kept clip rfl).same]

theorem Bounds.isExact_toJson (bounds : Bounds) : bounds.toJson.IsExact := by
  have side (side : Int32) : (Json.int side.toInt).IsExact :=
    .int side.toInt ((isSide side).widen (by decide))
  apply Json.IsExact.object
  simp [side]

theorem Component.isExact_toJson (component : Component) : component.toJson.IsExact := by
  apply Json.IsExact.object
  simp [Json.IsExact.string]

/-- An intent comes back if its parts do. -/
theorem Intent.isKept {intent : Intent} (data : ∀ uri ∈ intent.data, uri.IsRead)
    (selector : ∀ other ∈ intent.selector, other.IsKept) (extras : intent.extras.IsKept)
    (clip : ∀ clip ∈ intent.clip, clip.IsKept) : intent.IsKept where
  exact := by
    rw [Intent.toJson_eq]
    apply Json.IsExact.object
    simp only [List.forall_mem_cons, List.not_mem_nil, false_implies, implies_true, and_true]
    have text := Json.isExact_optionalString
    refine ⟨text _, Json.isExact_ofOption ?_, text _, text _, Json.isExact_strings _, text _,
      Json.isExact_ofOption ?_, Json.isExact_ofOption ?_, .string _, extras.exact,
      Json.isExact_ofOption ?_, Json.isExact_ofOption ?_⟩
    · exact fun uri _ => .string uri.text
    · exact fun component _ => component.isExact_toJson
    · exact fun other given => (selector other given).exact
    · exact fun clip' given => (clip clip' given).exact
    · exact fun bounds _ => bounds.isExact_toJson
  same := by
    have own := Intent.sameOptional_self selector
    have ownClip := Clip.sameOptional_self clip
    have ownExtras := extras.same
    cases intent
    simp_all [Intent.same]
  read := by
    intro isHeld depth within
    have slots : intent.toJson.slots? ["action", "data", "mime_type", "identifier", "categories",
        "package", "component", "selector", "flags", "extras", "clip_data", "source_bounds"] =
        some [.given (.optionalString intent.action), .given (.ofOption Uri.toJson intent.data),
          .given (.optionalString intent.mimeType), .given (.optionalString intent.identifier),
          .given intent.categories.toJson, .given (.optionalString intent.package),
          .given (.ofOption Component.toJson intent.component),
          .given (.ofOption Intent.toJson intent.selector), .given intent.flags.toJson,
          .given intent.extras.toJson, .given (.ofOption Clip.toJson intent.clip),
          .given (.ofOption Bounds.toJson intent.bounds)] := by
      rw [Intent.toJson_eq]
      exact Json.slots?_object (by decide) rfl
    rw [Intent.toJson_eq] at within
    have nested := Json.depth_lt_of_object within
    obtain ⟨depth, rfl⟩ := Nat.exists_eq_add_one.2 (Nat.zero_lt_of_lt within)
    simp only [List.forall_mem_cons, Nat.lt_add_one_iff] at nested
    obtain ⟨_, _, _, _, _, _, _, selectorDepth, _, extrasDepth, clipDepth, _⟩ := nested
    rw [Intent.decode?, slots, Option.bind_eq_bind, Option.bind_some]
    dsimp only
    have text := Json.Slot.optional_string
    refine Option.bind_eq_some_iff.2 ⟨_, text intent.action, ?_⟩
    refine Option.bind_eq_some_iff.2 ⟨_, Uri.optional_toJson data, ?_⟩
    refine Option.bind_eq_some_iff.2 ⟨_, text intent.mimeType, ?_⟩
    refine Option.bind_eq_some_iff.2 ⟨_, text intent.identifier, ?_⟩
    refine Option.bind_eq_some_iff.2 ⟨_, Json.Slot.required_given.trans
      intent.categories.ofJson?_toJson, ?_⟩
    refine Option.bind_eq_some_iff.2 ⟨_, text intent.package, ?_⟩
    refine Option.bind_eq_some_iff.2 ⟨_, Json.Slot.optional_ofOption (by simp [Component.toJson])
      fun component _ => component.ofJson?_toJson, ?_⟩
    refine Option.bind_eq_some_iff.2
      ⟨_, IsKept.optional selector Intent.toJson_ne_null selectorDepth isHeld, ?_⟩
    refine Option.bind_eq_some_iff.2 ⟨_, Json.Slot.required_given.trans
      (FlagSet.ofJson?_toJson intent.flags), ?_⟩
    refine Option.bind_eq_some_iff.2 ⟨_, Json.Slot.required_given.trans
      (extras.read isHeld depth extrasDepth), ?_⟩
    refine Option.bind_eq_some_iff.2
      ⟨_, IsKept.optional clip (by simp [Clip.toJson_eq]) clipDepth isHeld, ?_⟩
    refine Option.bind_eq_some_iff.2 ⟨_, Json.Slot.optional_ofOption (by simp [Bounds.toJson])
      fun bounds _ => bounds.ofJson?_toJson, ?_⟩
    cases intent
    rfl

mutual

theorem Intent.IsGenuine.isKept {intent : Intent} (genuine : intent.IsGenuine)
    (exact : intent.isExact = true) : intent.IsKept :=
  match genuine with
  | .of data selector extras clip => by
      obtain ⟨exactSelector, exactExtras, exactClip⟩ := Intent.isExact_iff.1 exact
      exact Intent.isKept data
        (fun other given => (selector other given).isKept (exactSelector other given))
        (extras.isKept exactExtras)
        (fun other given => (clip other given).isKept (exactClip other given))

theorem Bundle.IsGenuine.isKept {bundle : Bundle} (genuine : bundle.IsGenuine)
    (exact : bundle.isExact = true) : bundle.IsKept :=
  match genuine with
  | .of distinct values =>
      Bundle.isKept distinct fun entry member =>
        (values entry member).isKept (Bundle.isExact_iff.1 exact entry member)

theorem Value.IsGenuine.isKept {value : Value} (genuine : value.IsGenuine)
    (exact : value.isExact = true) : value.IsKept :=
  match genuine with
  | .plain isPlain => Value.isKept_of_plain isPlain exact
  | .uri read => Value.isKept_uri read
  | .intent content => Value.isKept_intent (content.isKept (by simpa [Value.isExact] using exact))
  | .bundle content => Value.isKept_bundle (content.isKept (by simpa [Value.isExact] using exact))

theorem Clip.IsGenuine.isKept {clip : Clip} (genuine : clip.IsGenuine)
    (exact : clip.isExact = true) : clip.IsKept :=
  match genuine with
  | .of items =>
      Clip.isKept fun item member =>
        (items item member).isKept (Clip.isExact_iff.1 exact item member)

theorem ClipItem.IsGenuine.isKept {item : ClipItem} (genuine : item.IsGenuine)
    (exact : item.isExact = true) : item.IsKept :=
  match genuine with
  | .of uri intent =>
      ClipItem.isKept uri fun other given =>
        (intent other given).isKept (ClipItem.isExact_iff.1 exact other given)

end

end Kept

/-- Whatever a program makes without floating-point numbers comes back from its document and from both
texts of it, unless the text is nested more deeply than the reader goes: with its extras in their order
and all its flags. It is also the same as itself, which is less than it seems where there are bundles. -/
theorem Intent.IsCrafted.comes_back {intent : Intent} (crafted : intent.IsCrafted)
    (exact : intent.isExact = true) :
    Intent.ofJson? intent.toJson = some intent ∧ intent.same intent = true ∧
      ∀ limit, intent.toJson.depth ≤ limit →
        ∀ text ∈ [Json.compact intent.toJson, Json.indented intent.toJson],
          (Json.readWithin limit text).bind Intent.ofJson? = some intent := by
  have kept := crafted.isGenuine.isKept exact
  have back : Intent.ofJson? intent.toJson = some intent :=
    kept.read false intent.toJson.depth (Nat.le_refl _)
  refine ⟨back, kept.same, fun limit within text member => ?_⟩
  have read : Json.readWithin limit text = some intent.toJson := by
    simp only [List.mem_cons, List.not_mem_nil, or_false] at member
    rcases member with rfl | rfl
    · exact kept.exact.readWithin_compact within
    · exact kept.exact.readWithin_indented within
  rw [read, Option.bind_some, back]

namespace Reminder

open Intent (IsCrafted)
open Intent.Change (uris intents values clips)

def note : Uri := ⟨some "content", .hierarchical (some "notes") "/1" none, none⟩

/-- Opens a note. -/
def opening : Intent := { Intent.ofAction Action.view with data := some note }

/-- A request that holds another one as its selector, in its clip and in a bundle among its extras, and has
a flag without a name. -/
def request : Intent :=
  { Intent.ofAction "REMIND" with
    selector := some opening
    flags := ⟨0x201⟩
    extras := ⟨[("days", .int (-3)), ("more", .bundle ⟨[("then", .intent opening)]⟩)]⟩
    clip := some ⟨none, [], [⟨some "note", some note, some opening⟩]⟩ }

theorem note_isRead : note.IsRead := ⟨"content://notes/1", by rfl⟩

theorem opening_isCrafted : opening.IsCrafted := by
  have named := IsCrafted.empty.changed (.action (some Action.view)) rfl rfl rfl rfl rfl
  refine .change (.data (some note)) named ?_ ?_ ?_ ?_ rfl
  · simp [uris, note_isRead]
  · simp [intents]
  · simp [values]
  · simp [clips]

theorem request_isCrafted : request.IsCrafted := by
  have opened := opening_isCrafted
  have item : ClipItem.IsCrafted ⟨some "note", some note, some opening⟩ := by
    apply ClipItem.IsCrafted.of <;> simp [note_isRead, opened]
  have clip : Clip.IsCrafted ⟨none, [], [⟨some "note", some note, some opening⟩]⟩ :=
    .of (by simp [item])
  have nested : Bundle.IsCrafted ⟨[("then", .intent opening)]⟩ :=
    Bundle.IsCrafted.insert "then" .empty (.intent opened)
  have named := IsCrafted.empty.changed (.action (some "REMIND")) rfl rfl rfl rfl rfl
  have flagged := named.changed (.flags ⟨0x201⟩) rfl rfl rfl rfl rfl
  have selected := IsCrafted.change (.selector (some opening)) flagged (by simp [uris])
    (by simp [intents, opened]) (by simp [values]) (by simp [clips]) rfl
  have clipped := IsCrafted.change (.clip (some ⟨none, [], [⟨some "note", some note, some opening⟩]⟩))
    selected (by simp [uris]) (by simp [intents]) (by simp [values]) (by simp [clips, clip]) rfl
  have counted := IsCrafted.change (.putExtra "days" (.int (-3))) clipped (by simp [uris])
    (by simp [intents]) (by simpa [values] using Value.IsCrafted.plain rfl) (by simp [clips]) rfl
  exact .change (.putExtra "more" (.bundle ⟨[("then", .intent opening)]⟩)) counted (by simp [uris])
    (by simp [intents]) (by simpa [values] using Value.IsCrafted.bundle nested) (by simp [clips]) rfl

theorem request_comes_back :
    request.IsCrafted ∧ request.isExact = true ∧
      Intent.ofJson? request.toJson = some request ∧
        (Json.read? (Json.compact request.toJson)).bind Intent.ofJson? = some request := by
  have exact : request.isExact = true := by
    decide
  have within : request.toJson.depth ≤ Json.nestingLimit := by
    decide
  obtain ⟨back, _, read⟩ := request_isCrafted.comes_back exact
  exact ⟨request_isCrafted, exact, back, read Json.nestingLimit within _ (List.mem_cons_self ..)⟩

end Reminder

end IntentRouting
