import IntentRouting.FlagSet
import IntentRouting.Proofs.Number.Digits

/-!
# Flags as text

A set of flags is read back from its text, bits without a name included, as long as its vocabulary has
names that can be told apart and from a number (`FlagSet.parse?_text`). A flag that is written is taken
out of the bits that are left, and reading puts it back.
-/

namespace IntentRouting

/-- What stands under a name in entries whose names differ. -/
theorem lookup_of_nodup {α : Type} {entries : List (String × α)} {entry : String × α}
    (distinct : (entries.map (·.1)).Nodup) (member : entry ∈ entries) :
    entries.lookup entry.1 = some entry.2 := by
  obtain ⟨earlier, later, rfl⟩ := List.append_of_mem member
  rw [List.map_append, List.nodup_append] at distinct
  refine List.lookup_eq_some_iff.2 ⟨earlier, later, rfl, ?_⟩
  intro other before
  have apart := distinct.2.2 other.1 (List.mem_map_of_mem before) entry.1 (by simp)
  simpa using Ne.symm apart

namespace Text

variable {c : Char} {part before after characters : List Char}

/-- Characters that trimming leaves alone and that no bar cuts. -/
structure IsPart (part : List Char) : Prop where
  someText : part ≠ []
  noBlank : ∀ c ∈ part, isBlank c = false
  noBar : '|' ∉ part

theorem trimEnd_cons (c : Char) (rest : List Char) :
    trimEnd (c :: rest) =
      if (trimEnd rest).isEmpty && isBlank c then [] else c :: trimEnd rest :=
  rfl

theorem trimEnd_append (noBlank : ∀ c ∈ part, isBlank c = false)
    (blanks : ∀ c ∈ after, isBlank c = true) : trimEnd (part ++ after) = part := by
  induction part with
  | nil =>
      induction after with
      | nil => rfl
      | cons c after ih =>
          rw [List.forall_mem_cons] at blanks
          have nothing := ih blanks.2
          simp_all [trimEnd_cons]
  | cons c part ih =>
      rw [List.forall_mem_cons] at noBlank
      simp [trimEnd_cons, ih noBlank.2, noBlank.1]

/-- Blanks around a part are trimmed. -/
theorem IsPart.trim (isPart : IsPart part) (blanksBefore : ∀ c ∈ before, isBlank c = true)
    (blanksAfter : ∀ c ∈ after, isBlank c = true) : trim (before ++ part ++ after) = part := by
  have start : trimStart (before ++ (part ++ after)) = part ++ after := by
    rw [trimStart, List.dropWhile_append_of_pos blanksBefore]
    cases part with
    | nil => exact absurd rfl isPart.someText
    | cons c part => simp [isPart.noBlank c (List.mem_cons_self ..)]
  rw [Text.trim, List.append_assoc, start, trimEnd_append isPart.noBlank blanksAfter]

theorem IsPart.trim_self (isPart : IsPart part) : Text.trim part = part := by
  simpa using isPart.trim (List.forall_mem_nil _) (List.forall_mem_nil _)

theorem trimEnd_ne_nil (member : c ∈ characters) (notBlank : isBlank c = false) :
    trimEnd characters ≠ [] := by
  induction characters with
  | nil => cases member
  | cons first characters ih =>
      rcases List.mem_cons.1 member with rfl | later
      · simp [trimEnd_cons, notBlank]
      · simp [trimEnd_cons, ih later]

/-- What has a character other than a blank is not trimmed away. -/
theorem trim_ne_nil (member : c ∈ characters) (notBlank : isBlank c = false) :
    trim characters ≠ [] := by
  apply trimEnd_ne_nil _ notBlank
  rw [trimStart]
  rw [← List.takeWhile_append_dropWhile (p := isBlank) (l := characters), List.mem_append] at member
  rcases member with blank | kept
  · rw [List.mem_takeWhile_imp blank] at notBlank
    cases notBlank
  · exact kept

end Text

namespace FlagVocabulary

/-- Whether the names of a vocabulary can be told apart, from each other and from a number. -/
structure IsLegible (vocabulary : FlagVocabulary) : Prop where
  distinct : (vocabulary.names.map (·.1)).Nodup
  isPart : ∀ entry ∈ vocabulary.names, Text.IsPart entry.1.toList
  notNumber : ∀ entry ∈ vocabulary.names, ¬ ['0', 'x'] <+: entry.1.toList

end FlagVocabulary

namespace FlagSet

open Text (IsPart)

variable {vocabulary : FlagVocabulary} {bits : BitVec 32}

theorem readPart?_name (legible : vocabulary.IsLegible) {entry : String × BitVec 32}
    (member : entry ∈ vocabulary.names) :
    readPart? vocabulary entry.1.toList = some entry.2 := by
  rw [readPart?.eq_def]
  split
  · rename_i digits found
    exact absurd ⟨digits, found.symm⟩ (legible.notNumber entry member)
  · rw [String.ofList_toList]
    exact lookup_of_nodup legible.distinct member

/-- The number that stands for bits without a name. -/
def numberChars (bits : BitVec 32) : List Char := '0' :: 'x' :: Nat.toDigits 16 bits.toNat

theorem readPart?_numberChars (bits : BitVec 32) :
    readPart? vocabulary (numberChars bits) = some bits := by
  have within : (bits.toNat : Int) ≤ wordBounds.highest := by
    have below := bits.isLt
    have highest : wordBounds.highest = 4294967295 := rfl
    omega
  rw [numberChars, readPart?, Integer.read_toDigits (.inr rfl) within]
  simp [Except.toOption]

theorem isPart_numberChars (bits : BitVec 32) : IsPart (numberChars bits) where
  someText := List.cons_ne_nil _ _
  noBlank := by
    have noBlank : ∀ digit : Fin 16, Text.isBlank (Nat.digitChar digit) = false := by
      decide
    intro c member
    simp only [numberChars, List.mem_cons] at member
    rcases member with rfl | rfl | member
    · rfl
    · rfl
    · obtain ⟨digit, small, rfl⟩ := Integer.exists_digit_of_mem_toDigits (.inr rfl) member
      exact noBlank ⟨digit, small⟩
  noBar := by
    have digits : '|' ∉ Nat.toDigits 16 bits.toNat :=
      Integer.notMem_toDigits (.inr rfl) (by decide) (by decide)
    simp [numberChars, digits]

/-- The parts of a text: names, and a number if bits are left without one. -/
def writtenParts (bits : BitVec 32) (entries : List (String × BitVec 32)) : List (List Char) :=
  let (names, left) := describe bits entries
  names.map String.toList ++ if left = 0 then [] else [numberChars left]

theorem text_eq (flags : FlagSet vocabulary) : flags.text =
    String.ofList (Text.join " | ".toList (writtenParts flags.bits vocabulary.names)) := by
  simp only [text, Text.joinText, writtenParts, List.map_append]
  congr 3
  split <;> simp [numberChars]

theorem writtenParts_nil (bits : BitVec 32) :
    writtenParts bits [] = if bits = 0 then [] else [numberChars bits] :=
  rfl

theorem writtenParts_cons (bits : BitVec 32) (entry : String × BitVec 32)
    (entries : List (String × BitVec 32)) :
    writtenParts bits (entry :: entries) =
      if bits &&& entry.2 = entry.2 then
        entry.1.toList :: writtenParts (bits &&& ~~~entry.2) entries
      else writtenParts bits entries := by
  simp only [writtenParts, describe]
  split <;> rfl

theorem isPart_of_mem_writtenParts (legible : vocabulary.IsLegible)
    {entries : List (String × BitVec 32)} (among : ∀ entry ∈ entries, entry ∈ vocabulary.names)
    (bits : BitVec 32) : ∀ part ∈ writtenParts bits entries, IsPart part := by
  induction entries generalizing bits with
  | nil =>
      rw [writtenParts_nil]
      by_cases zero : bits = 0
      · simp only [if_pos zero, List.not_mem_nil, false_implies, implies_true]
      · simp only [if_neg zero, List.forall_mem_singleton, isPart_numberChars]
  | cons entry entries ih =>
      rw [List.forall_mem_cons] at among
      rw [writtenParts_cons]
      split
      · rw [List.forall_mem_cons]
        exact ⟨legible.isPart entry among.1, ih among.2 _⟩
      · exact ih among.2 bits

theorem or_and_not_of_contained {bit : BitVec 32} (contained : bits &&& bit = bit) :
    bit ||| (bits &&& ~~~bit) = bits := by
  apply BitVec.eq_of_getLsbD_eq
  intro place below
  have here := congrArg (·.getLsbD place) contained
  simp only [BitVec.getLsbD_and] at here
  simp only [BitVec.getLsbD_or, BitVec.getLsbD_and, BitVec.getLsbD_not, below]
  revert here
  cases bits.getLsbD place <;> cases bit.getLsbD place <;> decide

/-- Reading puts back each flag that was taken out of the bits when it was written. -/
theorem readParts?_writtenParts (legible : vocabulary.IsLegible)
    {entries : List (String × BitVec 32)} (among : ∀ entry ∈ entries, entry ∈ vocabulary.names)
    (bits : BitVec 32) : readParts? vocabulary (writtenParts bits entries) = some bits := by
  induction entries generalizing bits with
  | nil =>
      have number := (isPart_numberChars bits).trim_self
      rw [writtenParts_nil]
      by_cases zero : bits = 0
      · rw [if_pos zero, readParts?, zero]
      · rw [if_neg zero, readParts?, number, readPart?_numberChars]
        simp [readParts?]
  | cons entry entries ih =>
      rw [List.forall_mem_cons] at among
      rw [writtenParts_cons]
      split
      · rename_i contained
        have name := (legible.isPart entry among.1).trim_self
        simp [readParts?, name, readPart?_name legible among.1, ih among.2,
          or_and_not_of_contained contained]
      · exact ih among.2 bits

/-- Cutting a text at its bars gives back the parts, with blanks around them. -/
theorem readParts?_split_join {part before : List Char} {parts : List (List Char)}
    (areParts : ∀ other ∈ part :: parts, IsPart other)
    (blanks : ∀ c ∈ before, Text.isBlank c = true) :
    readParts? vocabulary (Text.split '|' (before ++ Text.join " | ".toList (part :: parts))) =
      readParts? vocabulary (part :: parts) := by
  rw [List.forall_mem_cons] at areParts
  have noBar : '|' ∉ before ++ part := by
    rw [List.mem_append, not_or]
    refine ⟨fun bar => ?_, areParts.1.noBar⟩
    cases blanks '|' bar
  induction parts generalizing part before with
  | nil =>
      have trimmed := areParts.1.trim blanks (List.forall_mem_nil _)
      rw [List.append_nil] at trimmed
      simp [Text.join, Text.split_of_not_mem noBar, readParts?, trimmed, areParts.1.trim_self]
  | cons next parts ih =>
      have space : ∀ c ∈ [' '], Text.isBlank c = true :=
        List.forall_mem_singleton.2 rfl
      have noBarSpace : '|' ∉ before ++ part ++ [' '] := by
        simp_all
      have written : before ++ Text.join " | ".toList (part :: next :: parts) =
          (before ++ part ++ [' ']) ++ '|' ::
            ([' '] ++ Text.join " | ".toList (next :: parts)) := by
        simp [Text.join]
      have trimmed := areParts.1.trim blanks space
      rw [List.forall_mem_cons] at areParts
      have later := ih areParts.2 space (by simp [areParts.2.1.noBar])
      rw [written, Text.split_append_separator, Text.split_of_not_mem noBarSpace,
        List.singleton_append, readParts?, later, trimmed, readParts?.eq_2 _ part,
        areParts.1.trim_self]

/-- A set of flags is read back from its text, with the bits that have no name. -/
theorem parse?_text (legible : vocabulary.IsLegible) (flags : FlagSet vocabulary) :
    parse? flags.text = some flags := by
  have read := readParts?_writtenParts legible (fun _ member => member) flags.bits
  have areParts := isPart_of_mem_writtenParts legible (fun _ member => member) flags.bits
  rw [parse?, text_eq, String.toList_ofList]
  cases found : writtenParts flags.bits vocabulary.names with
  | nil =>
      rw [found, readParts?, Option.some.injEq] at read
      have blank : (Text.trim (Text.join " | ".toList [])).isEmpty = true := rfl
      rw [if_pos blank, empty, read]
  | cons part parts =>
      rw [found] at read areParts
      have whole : readParts? vocabulary
          (Text.split '|' (Text.join " | ".toList (part :: parts))) = some flags.bits :=
        (readParts?_split_join areParts (List.forall_mem_nil _)).trans read
      obtain ⟨someText, noBlank, _⟩ := areParts part (List.mem_cons_self ..)
      obtain ⟨c, characters, rfl⟩ := List.exists_cons_of_ne_nil someText
      have begins : c ∈ Text.join " | ".toList ((c :: characters) :: parts) := by
        cases parts <;> simp [Text.join]
      have notBlank := Text.trim_ne_nil begins (noBlank c (List.mem_cons_self ..))
      rw [if_neg (by simpa using notBlank), whole]
      rfl

end FlagSet

theorem IntentFlag.isLegible : vocabulary.IsLegible where
  distinct := by
    decide
  isPart := by
    have spelled : vocabulary.names.all (fun entry => !entry.1.toList.isEmpty &&
        entry.1.toList.all fun c => !Text.isBlank c && c != '|') = true := by
      decide
    intro entry member
    have here := List.all_eq_true.1 spelled entry member
    simp only [Bool.and_eq_true, Bool.not_eq_true', List.isEmpty_eq_false_iff, List.all_eq_true,
      bne_iff_ne] at here
    exact ⟨here.1, fun c written => (here.2 c written).1, fun bar => (here.2 '|' bar).2 rfl⟩
  notNumber := by
    decide

end IntentRouting
