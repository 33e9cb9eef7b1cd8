import IntentRouting.Number.Integer
import IntentRouting.Text.Blank
import IntentRouting.Text.Split

/-!
# Sets of flags

A vocabulary names some of the bits of a 32-bit word, and a set of its flags is such a word; bits
without a name are kept. Sets of different vocabularies are different types. Written as text, the
names stand in the order of the vocabulary with a bar between them, and the bits without a name
follow as one hexadecimal number.
-/

namespace IntentRouting

/-- Names for the bits of a word, in the order in which they are written. -/
structure FlagVocabulary where
  names : List (String × BitVec 32)

/-- A set of flags. -/
structure FlagSet (vocabulary : FlagVocabulary) where
  bits : BitVec 32
deriving DecidableEq, Repr

namespace FlagSet

variable {vocabulary : FlagVocabulary}

def empty : FlagSet vocabulary := ⟨0⟩

instance : EmptyCollection (FlagSet vocabulary) := ⟨empty⟩

instance : Inhabited (FlagSet vocabulary) := ⟨empty⟩

instance : Union (FlagSet vocabulary) := ⟨fun left right => ⟨left.bits ||| right.bits⟩⟩

instance : Inter (FlagSet vocabulary) := ⟨fun left right => ⟨left.bits &&& right.bits⟩⟩

instance : SDiff (FlagSet vocabulary) := ⟨fun left right => ⟨left.bits &&& ~~~right.bits⟩⟩

/-- Whether a set has no flags, with or without a name. -/
def isEmpty (flags : FlagSet vocabulary) : Bool := flags.bits = 0

def contains (flags others : FlagSet vocabulary) : Bool := flags.bits &&& others.bits = others.bits

def intersects (flags others : FlagSet vocabulary) : Bool := !(flags ∩ others).isEmpty

def named (vocabulary : FlagVocabulary) : FlagSet vocabulary :=
  ⟨vocabulary.names.foldl (fun bits entry => bits ||| entry.2) 0⟩

def ofBits (bits : BitVec 32) : FlagSet vocabulary := ⟨bits⟩ ∩ named vocabulary

/-- The set of the flag at one place of the word. -/
def single (place : Fin 32) : FlagSet vocabulary := ⟨BitVec.twoPow 32 place⟩

/-- The places of the word at which a set has a flag. -/
instance : Membership (Fin 32) (FlagSet vocabulary) :=
  ⟨fun flags place => flags.bits.getLsbD place = true⟩

instance (place : Fin 32) (flags : FlagSet vocabulary) : Decidable (place ∈ flags) :=
  inferInstanceAs (Decidable (flags.bits.getLsbD place = true))

section Places

variable {left right flags others : FlagSet vocabulary} {place other : Fin 32}

theorem mem_def : place ∈ flags ↔ flags.bits.getLsbD place = true := Iff.rfl

/-- A set is determined by the places of its flags. -/
@[ext]
theorem ext (same : ∀ place, place ∈ left ↔ place ∈ right) : left = right := by
  rcases left with ⟨left⟩
  rcases right with ⟨right⟩
  congr 1
  apply BitVec.eq_of_getLsbD_eq
  intro index below
  exact Bool.eq_iff_iff.2 (same ⟨index, below⟩)

@[simp]
theorem not_mem_empty : place ∉ (empty : FlagSet vocabulary) := by
  simp [mem_def, empty]

@[simp]
theorem mem_union : place ∈ left ∪ right ↔ place ∈ left ∨ place ∈ right := by
  simp [mem_def, Union.union]

@[simp]
theorem mem_inter : place ∈ left ∩ right ↔ place ∈ left ∧ place ∈ right := by
  simp [mem_def, Inter.inter]

@[simp]
theorem mem_sdiff : place ∈ left \ right ↔ place ∈ left ∧ place ∉ right := by
  simp [mem_def, SDiff.sdiff]

@[simp]
theorem mem_single : place ∈ (single other : FlagSet vocabulary) ↔ place = other := by
  simp [mem_def, single, Fin.ext_iff, eq_comm]

@[simp]
theorem isEmpty_empty : (empty : FlagSet vocabulary).isEmpty = true := rfl

theorem isEmpty_iff : flags.isEmpty = true ↔ ∀ place, place ∉ flags := by
  constructor
  · intro none place
    simp only [isEmpty, decide_eq_true_eq] at none
    simp [mem_def, none]
  · intro none
    have : flags = empty := ext (by simpa using none)
    simp [this, isEmpty, empty]

theorem isEmpty_eq_false_iff : flags.isEmpty = false ↔ ∃ place, place ∈ flags := by
  rw [← Bool.not_eq_true, isEmpty_iff]
  simp

theorem contains_iff : flags.contains others = true ↔ ∀ place ∈ others, place ∈ flags := by
  have inter : flags.contains others = true ↔ flags ∩ others = others := by
    rcases flags with ⟨flags⟩
    rcases others with ⟨others⟩
    simp [contains, Inter.inter]
  rw [inter, FlagSet.ext_iff]
  simp

theorem intersects_iff : flags.intersects others = true ↔ ∃ place ∈ others, place ∈ flags := by
  rw [intersects, Bool.not_eq_true', ← Bool.not_eq_true, isEmpty_iff]
  simp [and_comm]

@[simp]
theorem contains_single : flags.contains (single place) = true ↔ place ∈ flags := by
  simp [contains_iff]

@[simp]
theorem isEmpty_single : (single place : FlagSet vocabulary).isEmpty = false := by
  rw [← Bool.not_eq_true, isEmpty_iff]
  simp

end Places

def toNat (flags : FlagSet vocabulary) : Nat := flags.bits.toNat

/-- The texts of the names that a set has, in order, and the bits that are left without a name. -/
def describe (bits : BitVec 32) : List (String × BitVec 32) → List String × BitVec 32
  | [] => ([], bits)
  | (name, bit) :: names =>
      if bits &&& bit = bit then
        let (rest, left) := describe (bits &&& ~~~bit) names
        (name :: rest, left)
      else describe bits names

def text (flags : FlagSet vocabulary) : String :=
  let (names, left) := describe flags.bits vocabulary.names
  let unnamed :=
    if left = 0 then [] else [String.ofList ('0' :: 'x' :: Nat.toDigits 16 left.toNat)]
  Text.joinText " | " (names ++ unnamed)

def wordBounds : Integer.Bounds := .unsigned 32

/-- Reads one part of the text of a set: a name, or a hexadecimal number after `0x`. -/
def readPart? (vocabulary : FlagVocabulary) (part : List Char) : Option (BitVec 32) :=
  match part with
  | '0' :: 'x' :: digits =>
      (Integer.read 16 wordBounds digits).toOption.map fun n => BitVec.ofNat 32 n.toNat
  | _ => vocabulary.names.lookup (String.ofList part)

/-- Reads the parts of a text and puts them together. -/
def readParts? (vocabulary : FlagVocabulary) : List (List Char) → Option (BitVec 32)
  | [] => some 0
  | part :: parts => do
      let bits ← readPart? vocabulary (Text.trim part)
      let rest ← readParts? vocabulary parts
      some (bits ||| rest)

/-- Reads a set. Blanks around the parts do not count, and a blank text is the empty set. -/
def parse? (text : String) : Option (FlagSet vocabulary) :=
  if (Text.trim text.toList).isEmpty then some empty
  else (readParts? vocabulary (Text.split '|' text.toList)).map FlagSet.mk

end FlagSet

def IntentFlag.vocabulary : FlagVocabulary :=
  ⟨[("GRANT_READ_URI_PERMISSION", 0x1), ("GRANT_WRITE_URI_PERMISSION", 0x2),
    ("FROM_BACKGROUND", 0x4), ("DEBUG_LOG_RESOLUTION", 0x8), ("EXCLUDE_STOPPED_PACKAGES", 0x10),
    ("INCLUDE_STOPPED_PACKAGES", 0x20), ("GRANT_PERSISTABLE_URI_PERMISSION", 0x40),
    ("GRANT_PREFIX_URI_PERMISSION", 0x80), ("ACTIVITY_CLEAR_TASK", 0x8000),
    ("ACTIVITY_CLEAR_TOP", 0x4000000), ("ACTIVITY_MULTIPLE_TASK", 0x8000000),
    ("ACTIVITY_NEW_TASK", 0x10000000), ("ACTIVITY_SINGLE_TOP", 0x20000000),
    ("ACTIVITY_NO_HISTORY", 0x40000000)]⟩

abbrev IntentFlags := FlagSet IntentFlag.vocabulary

namespace IntentFlags

/-- Asks for read access to the URIs of an intent. -/
def grantRead : IntentFlags := ⟨0x1⟩

/-- Asks for write access to the URIs of an intent. -/
def grantWrite : IntentFlags := ⟨0x2⟩

def grantPersistable : IntentFlags := ⟨0x40⟩

/-- Extends the access to everything beneath the URIs. -/
def grantPrefix : IntentFlags := ⟨0x80⟩

/-- The flags that decide about access to URIs. -/
def grantMask : IntentFlags := grantRead ∪ grantWrite ∪ grantPersistable ∪ grantPrefix

/-- The part of a set that decides about access to URIs. -/
def grants (flags : IntentFlags) : IntentFlags := flags ∩ grantMask

/-- Whether a set asks for read or write access. -/
def requestsGrant (flags : IntentFlags) : Bool := flags.intersects (grantRead ∪ grantWrite)

end IntentFlags

def FillInFlag.vocabulary : FlagVocabulary :=
  ⟨[("ACTION", 0x1), ("DATA", 0x2), ("CATEGORIES", 0x4), ("COMPONENT", 0x8), ("PACKAGE", 0x10),
    ("SOURCE_BOUNDS", 0x20), ("SELECTOR", 0x40), ("CLIP_DATA", 0x80), ("IDENTIFIER", 0x100)]⟩

abbrev FillInFlags := FlagSet FillInFlag.vocabulary

namespace FillInFlags

def action : FillInFlags := ⟨0x1⟩

def data : FillInFlags := ⟨0x2⟩

def categories : FillInFlags := ⟨0x4⟩

def component : FillInFlags := ⟨0x8⟩

def package : FillInFlags := ⟨0x10⟩

def sourceBounds : FillInFlags := ⟨0x20⟩

def selector : FillInFlags := ⟨0x40⟩

def clipData : FillInFlags := ⟨0x80⟩

def identifier : FillInFlags := ⟨0x100⟩

end FillInFlags

def LinkFlag.vocabulary : FlagVocabulary :=
  ⟨[("INTENT_SCHEME", 0x1), ("ANDROID_APP_SCHEME", 0x2), ("ALLOW_UNSAFE", 0x4)]⟩

abbrev LinkFlags := FlagSet LinkFlag.vocabulary

namespace LinkFlags

/-- Writes under the scheme `intent:`. -/
def intentScheme : LinkFlags := ⟨0x1⟩

/-- Writes under the scheme `android-app:`. -/
def appScheme : LinkFlags := ⟨0x2⟩

/-- Keeps the flags that decide about access when reading. -/
def allowUnsafe : LinkFlags := ⟨0x4⟩

end LinkFlags

end IntentRouting
