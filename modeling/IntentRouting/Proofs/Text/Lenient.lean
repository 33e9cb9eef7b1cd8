import IntentRouting.Proofs.Text.Utf8

/-!
# Bytes that are not UTF-8

Lenient reading is specified by what stands at the front of the bytes (`ReadsAs`): the bytes of a
character are read as this character; where there are none, as many bytes as could still have become
a character are passed over together, but at least one, and read as U+FFFD. There is exactly one way
to read bytes like this, and it is the one that is computed (`decodeLossy_eq_iff`). So bytes that are
read alike are equal if both are those of characters (`ReadAlike.eq_of_isUtf8`).
-/

namespace IntentRouting.Text.Utf8

/-- U+FFFD, which stands for bytes that are not those of a character. -/
def replacement : Char := Char.ofNat 0xfffd

/-- Bytes that can be completed to those of a character. -/
def BeginsCharacter (bytes : List UInt8) : Prop := ∃ c, bytes <+: encodeChar c

/-- Bytes that are passed over together, given what follows them: no character stands there, and no
more bytes could have become one. -/
structure IsFault (part rest : List UInt8) : Prop where
  someByte : part ≠ []
  noCharacter : ∀ c, ¬ encodeChar c <+: part ++ rest
  begins : part.length = 1 ∨ BeginsCharacter part
  longest : ∀ longer, longer <+: part ++ rest → BeginsCharacter longer →
    longer.length ≤ part.length

/-- How bytes are read leniently. -/
inductive ReadsAs : List UInt8 → List Char → Prop where
  | nothing : ReadsAs [] []
  | character {rest : List UInt8} {characters : List Char} (c : Char)
      (later : ReadsAs rest characters) : ReadsAs (encodeChar c ++ rest) (c :: characters)
  | fault {part rest : List UInt8} {characters : List Char} (isFault : IsFault part rest)
      (later : ReadsAs rest characters) : ReadsAs (part ++ rest) (replacement :: characters)

/-- The bytes that may follow the first byte of a character. -/
inductive IsSequence (first : UInt8) : List UInt8 → Prop where
  | one (lead : first < 0x80) : IsSequence first []
  | two {second : UInt8} (lead : 0xc2 ≤ first ∧ first ≤ 0xdf)
      (continues : isContinuation second = true) : IsSequence first [second]
  | three {second third : UInt8} (lead : 0xe0 ≤ first ∧ first ≤ 0xef)
      (allowed : isSecondByte first second = true) (continues : isContinuation third = true) :
      IsSequence first [second, third]
  | four {second third fourth : UInt8} (lead : 0xf0 ≤ first ∧ first ≤ 0xf4)
      (allowed : isSecondByte first second = true) (continues : isContinuation third = true)
      (continues' : isContinuation fourth = true) : IsSequence first [second, third, fourth]

variable {n size : Nat} {c : Char} {characters : List Char} {first : UInt8}
  {bytes more rest : List UInt8}

section Sequences

theorem toNat_ofNat_scalar (scalar : n < 0xd800 ∨ 0xdfff < n ∧ n < 0x110000) :
    (Char.ofNat n).toNat = n := by
  have valid : n.isValidChar := scalar
  rw [Char.ofNat, dif_pos valid]
  rfl

theorem encodeChar_ofNat (scalar : n < 0xd800 ∨ 0xdfff < n ∧ n < 0x110000) :
    encodeChar (Char.ofNat n) =
      if n < 0x80 then [.ofNat n]
      else if n < 0x800 then [.ofNat (0xc0 + n / 64), .ofNat (0x80 + n % 64)]
      else if n < 0x10000 then
        [.ofNat (0xe0 + n / 4096), .ofNat (0x80 + n / 64 % 64), .ofNat (0x80 + n % 64)]
      else
        [.ofNat (0xf0 + n / 262144), .ofNat (0x80 + n / 4096 % 64), .ofNat (0x80 + n / 64 % 64),
          .ofNat (0x80 + n % 64)] := by
  simp only [encodeChar, toNat_ofNat_scalar scalar]

theorem ofNat_eq_of_toNat (byte : UInt8) (value : n = byte.toNat) : .ofNat n = byte := by
  rw [value, UInt8.ofNat_toNat]

theorem isContinuation_iff {byte : UInt8} :
    isContinuation byte = true ↔ 0x80 ≤ byte.toNat ∧ byte.toNat ≤ 0xbf := by
  simp [isContinuation, UInt8.le_iff_toNat_le]

theorem isSecondByte_iff {second : UInt8} : isSecondByte first second = true ↔
    0x80 ≤ second.toNat ∧ second.toNat ≤ 0xbf ∧ (first.toNat = 0xe0 → 0xa0 ≤ second.toNat) ∧
      (first.toNat = 0xed → second.toNat ≤ 0x9f) ∧ (first.toNat = 0xf0 → 0x90 ≤ second.toNat) ∧
        (first.toNat = 0xf4 → second.toNat ≤ 0x8f) := by
  simp only [isSecondByte, isContinuation, UInt8.le_iff_toNat_le, ← UInt8.toNat_inj,
    UInt8.reduceToNat]
  grind

/-- Every allowed sequence of bytes is that of a character. -/
theorem IsSequence.exists_encodeChar (isSequence : IsSequence first more) :
    ∃ c, encodeChar c = first :: more := by
  cases isSequence with
  | one lead =>
      simp only [UInt8.lt_iff_toNat_lt, UInt8.reduceToNat] at lead
      refine ⟨Char.ofNat first.toNat, ?_⟩
      rw [encodeChar_ofNat (by omega), if_pos lead, UInt8.ofNat_toNat]
  | @two second lead continues =>
      simp only [UInt8.le_iff_toNat_le, UInt8.reduceToNat] at lead
      rw [isContinuation_iff] at continues
      refine ⟨Char.ofNat (first.toNat % 32 * 64 + second.toNat % 64), ?_⟩
      rw [encodeChar_ofNat (by omega), if_neg (by omega), if_pos (by omega),
        ofNat_eq_of_toNat first (by omega), ofNat_eq_of_toNat second (by omega)]
  | @three second third lead allowed continues =>
      simp only [UInt8.le_iff_toNat_le, UInt8.reduceToNat] at lead
      rw [isSecondByte_iff] at allowed
      rw [isContinuation_iff] at continues
      refine ⟨Char.ofNat (first.toNat % 16 * 4096 + second.toNat % 64 * 64 + third.toNat % 64), ?_⟩
      rw [encodeChar_ofNat (by omega), if_neg (by omega), if_neg (by omega), if_pos (by omega),
        ofNat_eq_of_toNat first (by omega), ofNat_eq_of_toNat second (by omega),
        ofNat_eq_of_toNat third (by omega)]
  | @four second third fourth lead allowed continues continues' =>
      simp only [UInt8.le_iff_toNat_le, UInt8.reduceToNat] at lead
      rw [isSecondByte_iff] at allowed
      rw [isContinuation_iff] at continues continues'
      refine ⟨Char.ofNat (first.toNat % 8 * 262144 + second.toNat % 64 * 4096 +
        third.toNat % 64 * 64 + fourth.toNat % 64), ?_⟩
      rw [encodeChar_ofNat (by omega), if_neg (by omega), if_neg (by omega), if_neg (by omega),
        ofNat_eq_of_toNat first (by omega), ofNat_eq_of_toNat second (by omega),
        ofNat_eq_of_toNat third (by omega), ofNat_eq_of_toNat fourth (by omega)]

/-- A second byte that is allowed can be completed. -/
theorem exists_isSequence {second : UInt8} (lead : 0xe0 ≤ first ∧ first ≤ 0xf4)
    (allowed : isSecondByte first second = true) :
    ∃ tail, IsSequence first (second :: tail) := by
  by_cases three : first ≤ 0xef
  · exact ⟨[0x80], .three ⟨lead.1, three⟩ allowed (by decide)⟩
  · have above : 0xf0 ≤ first := by
      simp only [UInt8.le_iff_toNat_le, UInt8.reduceToNat] at three ⊢
      omega
    exact ⟨[0x80, 0x80], .four ⟨above, lead.2⟩ allowed (by decide) (by decide)⟩

/-- What bytes are, given what stands at their front: those of a character and the rest, a part that
could have become a character without the byte behind it, or a part that still could. -/
def Front.Describes (first : UInt8) (bytes : List UInt8) : Front → Prop
  | .character _ rest => ∃ more, IsSequence first more ∧ bytes = more ++ rest
  | .invalid size rest => ∃ more, bytes = more ++ rest ∧ more.length + 1 = size ∧
      (more = [] ∨ ∃ tail, IsSequence first (more ++ tail))
  | .incomplete => bytes = [] ∨ ∃ tail, IsSequence first (bytes ++ tail)

theorem describes_front : (front first bytes).Describes first bytes := by
  unfold front
  simp only [Bool.and_eq_true, decide_eq_true_eq]
  split
  · rename_i lead
    exact ⟨[], .one lead, rfl⟩
  split
  · rename_i lead
    split
    · exact .inl rfl
    · rename_i second bytes
      split
      · rename_i continues
        exact ⟨[second], .two lead continues, rfl⟩
      · exact ⟨[], rfl, rfl, .inl rfl⟩
  split
  · rename_i lead
    have lead' : 0xe0 ≤ first ∧ first ≤ 0xf4 := ⟨lead.1, UInt8.le_trans lead.2 (by decide)⟩
    split
    · exact .inl rfl
    · split
      · rename_i second allowed
        exact .inr (exists_isSequence lead' allowed)
      · exact ⟨[], rfl, rfl, .inl rfl⟩
    · rename_i second third bytes
      split
      · exact ⟨[], rfl, rfl, .inl rfl⟩
      rename_i allowed
      rw [Bool.not_eq_true, Bool.not_eq_false'] at allowed
      split
      · rename_i continues
        exact ⟨[second, third], .three lead allowed continues, rfl⟩
      · exact ⟨[second], rfl, rfl, .inr (exists_isSequence lead' allowed)⟩
  split
  · rename_i lead
    have lead' : 0xe0 ≤ first ∧ first ≤ 0xf4 := ⟨UInt8.le_trans (by decide) lead.1, lead.2⟩
    split
    · exact .inl rfl
    · split
      · rename_i second allowed
        exact .inr (exists_isSequence lead' allowed)
      · exact ⟨[], rfl, rfl, .inl rfl⟩
    · rename_i second third
      split
      · exact ⟨[], rfl, rfl, .inl rfl⟩
      rename_i allowed
      rw [Bool.not_eq_true, Bool.not_eq_false'] at allowed
      split
      · rename_i continues
        exact .inr ⟨[0x80], .four lead allowed continues (by decide)⟩
      · exact ⟨[second], rfl, rfl, .inr (exists_isSequence lead' allowed)⟩
    · rename_i second third fourth bytes
      split
      · exact ⟨[], rfl, rfl, .inl rfl⟩
      rename_i allowed
      rw [Bool.not_eq_true, Bool.not_eq_false'] at allowed
      split
      · exact ⟨[second], rfl, rfl, .inr (exists_isSequence lead' allowed)⟩
      rename_i continues
      rw [Bool.not_eq_true, Bool.not_eq_false'] at continues
      split
      · rename_i continues'
        exact ⟨[second, third, fourth], .four lead allowed continues continues', rfl⟩
      · exact ⟨[second, third], rfl, rfl, .inr ⟨[0x80], .four lead allowed continues (by decide)⟩⟩
  · exact ⟨[], rfl, rfl, .inl rfl⟩

theorem isSequence_of_front (found : front first bytes = .character c rest) :
    ∃ more, IsSequence first more ∧ bytes = more ++ rest := by
  have described : (front first bytes).Describes first bytes := describes_front
  rwa [found] at described

/-- A character that is found at the front of bytes has the bytes that stand there. -/
theorem eq_append_of_front (found : front first bytes = .character c rest) :
    first :: bytes = encodeChar c ++ rest := by
  rcases isSequence_of_front found with ⟨more, isSequence, rfl⟩
  rcases isSequence.exists_encodeChar with ⟨c', sequence⟩
  rcases exists_front_encodeChar c' rest with ⟨first', more', whole, read⟩
  rw [sequence, List.cons.injEq] at whole
  rcases whole with ⟨rfl, rfl⟩
  rw [found] at read
  cases read
  rw [sequence, List.cons_append]

theorem isSequence_of_encodeChar (bytes : encodeChar c = first :: more) :
    IsSequence first more := by
  rcases exists_front_encodeChar c [] with ⟨first', more', whole, read⟩
  rw [bytes, List.cons.injEq] at whole
  rcases whole with ⟨rfl, rfl⟩
  rcases isSequence_of_front read with ⟨sequence, isSequence, same⟩
  rw [List.append_nil, List.append_nil] at same
  rwa [same]

end Sequences

section Faults

theorem beginsCharacter_iff :
    BeginsCharacter (first :: more) ↔ ∃ tail, IsSequence first (more ++ tail) := by
  constructor
  · rintro ⟨c, tail, whole⟩
    exact ⟨tail, isSequence_of_encodeChar whole.symm⟩
  · rintro ⟨tail, isSequence⟩
    rcases isSequence.exists_encodeChar with ⟨c, whole⟩
    exact ⟨c, tail, by rw [whole, List.cons_append]⟩

/-- Where reading finds no character, none stands. -/
theorem not_encodeChar_prefix (notFound : ∀ c rest, front first bytes ≠ .character c rest)
    (c : Char) : ¬ encodeChar c <+: first :: bytes := by
  rintro ⟨rest, whole⟩
  rcases exists_front_encodeChar c rest with ⟨first', more, encoded, read⟩
  rw [encoded, List.cons_append, List.cons.injEq] at whole
  rcases whole with ⟨rfl, rfl⟩
  exact notFound c rest read

/-- What is invalid stays so, whatever follows it. -/
theorem length_lt_of_isSequence {tail : List UInt8} (found : front first bytes = .invalid size rest)
    (part : more <+: bytes) (isSequence : IsSequence first (more ++ tail)) :
    more.length < size := by
  rcases part with ⟨after, rfl⟩
  generalize whole : more ++ tail = sequence at isSequence
  unfold front at found
  cases isSequence with
  | one lead =>
      rw [if_pos lead] at found
      cases found
  | two lead continues =>
      have notOne : ¬ first < 0x80 := by
        simp only [UInt8.le_iff_toNat_le, UInt8.lt_iff_toNat_lt, UInt8.reduceToNat] at lead ⊢
        omega
      rcases more with _ | ⟨second, more⟩ <;> grind
  | three lead allowed continues =>
      have notOne : ¬ first < 0x80 := by
        simp only [UInt8.le_iff_toNat_le, UInt8.lt_iff_toNat_lt, UInt8.reduceToNat] at lead ⊢
        omega
      have notTwo : ¬ (0xc2 ≤ first ∧ first ≤ 0xdf) := by
        simp only [UInt8.le_iff_toNat_le, UInt8.reduceToNat] at lead ⊢
        omega
      rcases more with _ | ⟨second, _ | ⟨third, more⟩⟩ <;> grind
  | four lead allowed continues continues' =>
      have notOne : ¬ first < 0x80 := by
        simp only [UInt8.le_iff_toNat_le, UInt8.lt_iff_toNat_lt, UInt8.reduceToNat] at lead ⊢
        omega
      have notTwo : ¬ (0xc2 ≤ first ∧ first ≤ 0xdf) := by
        simp only [UInt8.le_iff_toNat_le, UInt8.reduceToNat] at lead ⊢
        omega
      have notThree : ¬ (0xe0 ≤ first ∧ first ≤ 0xef) := by
        simp only [UInt8.le_iff_toNat_le, UInt8.reduceToNat] at lead ⊢
        omega
      rcases more with _ | ⟨second, _ | ⟨third, _ | ⟨fourth, more⟩⟩⟩ <;> grind

theorem isFault_of_invalid (found : front first bytes = .invalid size rest) :
    ∃ part, first :: bytes = part ++ rest ∧ IsFault part rest := by
  have described : (front first bytes).Describes first bytes := describes_front
  rw [found] at described
  rcases described with ⟨more, rfl, rfl, begins⟩
  refine ⟨first :: more, rfl, by simp, not_encodeChar_prefix (by simp [found]), ?_, ?_⟩
  · rcases begins with rfl | begins
    · exact .inl rfl
    · exact .inr (beginsCharacter_iff.2 begins)
  · intro longer part completed
    cases longer with
    | nil => exact Nat.zero_le _
    | cons first' more' =>
        rw [List.cons_append, List.cons_prefix_cons] at part
        rcases part with ⟨rfl, part⟩
        rcases beginsCharacter_iff.1 completed with ⟨tail, isSequence⟩
        exact length_lt_of_isSequence found part isSequence

theorem isFault_of_incomplete (found : front first bytes = .incomplete) :
    IsFault (first :: bytes) [] := by
  have described : (front first bytes).Describes first bytes := describes_front
  rw [found] at described
  refine ⟨by simp, ?_, ?_, ?_⟩
  · rw [List.append_nil]
    exact not_encodeChar_prefix (by simp [found])
  · rcases described with rfl | begins
    · exact .inl rfl
    · exact .inr (beginsCharacter_iff.2 begins)
  · intro longer part _
    rw [List.append_nil] at part
    exact part.length_le

theorem IsFault.length_le {part part' rest' : List UInt8} (left : IsFault part rest)
    (right : IsFault part' rest') (whole : part ++ rest = part' ++ rest') :
    part.length ≤ part'.length := by
  rcases left.begins with one | begins
  · rw [one]
    exact List.length_pos_iff.2 right.someByte
  · apply right.longest part _ begins
    rw [← whole]
    exact List.prefix_append _ _

/-- The bytes that are passed over together are determined. -/
theorem IsFault.unique {part part' rest' : List UInt8} (left : IsFault part rest)
    (right : IsFault part' rest') (whole : part ++ rest = part' ++ rest') :
    part = part' ∧ rest = rest' :=
  List.append_inj whole
    (Nat.le_antisymm (left.length_le right whole) (right.length_le left whole.symm))

end Faults

section Reading

variable {characters' : List Char} {left right : List UInt8}

theorem encodeChar_append_inj {c' : Char} {rest' : List UInt8}
    (whole : encodeChar c ++ rest = encodeChar c' ++ rest') : c = c' ∧ rest = rest' := by
  rcases exists_front_encodeChar c rest with ⟨first, more, encoded, read⟩
  rcases exists_front_encodeChar c' rest' with ⟨first', more', encoded', read'⟩
  rw [encoded, encoded', List.cons_append, List.cons_append, List.cons.injEq] at whole
  rw [whole.1, whole.2, read'] at read
  cases read
  exact ⟨rfl, rfl⟩

theorem encodeChar_ne_nil : encodeChar c ≠ [] := by
  rcases exists_front_encodeChar c [] with ⟨first, more, encoded, _⟩
  simp [encoded]

/-- Bytes are read leniently in one way only. -/
theorem ReadsAs.unique (read : ReadsAs bytes characters) (read' : ReadsAs bytes characters') :
    characters = characters' := by
  induction read generalizing characters' with
  | nothing =>
      generalize whole : ([] : List UInt8) = bytes at read'
      cases read' with
      | nothing => rfl
      | character c _ => exact absurd (List.append_eq_nil_iff.1 whole.symm).1 encodeChar_ne_nil
      | fault isFault _ => exact absurd (List.append_eq_nil_iff.1 whole.symm).1 isFault.someByte
  | @character rest _ c _ ih =>
      generalize whole : encodeChar c ++ rest = bytes at read'
      cases read' with
      | nothing => exact absurd (List.append_eq_nil_iff.1 whole).1 encodeChar_ne_nil
      | character c' later =>
          rcases encodeChar_append_inj whole with ⟨rfl, rfl⟩
          rw [ih later]
      | fault isFault _ => exact absurd ⟨rest, whole⟩ (isFault.noCharacter c)
  | @fault part rest _ isFault _ ih =>
      generalize whole : part ++ rest = bytes at read'
      cases read' with
      | nothing => exact absurd (List.append_eq_nil_iff.1 whole).1 isFault.someByte
      | @character rest' _ c' _ => exact absurd ⟨rest', whole.symm⟩ (isFault.noCharacter c')
      | fault isFault' later =>
          rcases isFault.unique isFault' whole with ⟨rfl, rfl⟩
          rw [ih later]

theorem readsAs_decodeLossy (bytes : List UInt8) : ReadsAs bytes (decodeLossy bytes) := by
  fun_induction decodeLossy bytes with
  | case1 => exact .nothing
  | case2 first bytes c rest found _ ih =>
      rw [eq_append_of_front found]
      exact .character c ih
  | case3 first bytes size rest found _ ih =>
      rcases isFault_of_invalid found with ⟨part, whole, isFault⟩
      rw [whole]
      exact .fault isFault ih
  | case4 first bytes found =>
      have read := ReadsAs.fault (isFault_of_incomplete found) .nothing
      rwa [List.append_nil] at read

/-- The lenient reading of bytes is the one that is computed. -/
theorem decodeLossy_eq_iff : decodeLossy bytes = characters ↔ ReadsAs bytes characters := by
  constructor
  · rintro rfl
    exact readsAs_decodeLossy bytes
  · exact (readsAs_decodeLossy bytes).unique

theorem readsAs_encode (characters : List Char) : ReadsAs (encode characters) characters := by
  induction characters with
  | nil => exact .nothing
  | cons c characters ih => exact .character c ih

/-- Bytes that are those of some characters. -/
def IsUtf8 (bytes : List UInt8) : Prop := ∃ characters, bytes = encode characters

/-- Bytes that are read leniently as the same characters. -/
def ReadAlike (left right : List UInt8) : Prop :=
  ∃ characters, ReadsAs left characters ∧ ReadsAs right characters

theorem readAlike_iff : ReadAlike left right ↔ decodeLossy left = decodeLossy right := by
  constructor
  · rintro ⟨characters, readLeft, readRight⟩
    rw [decodeLossy_eq_iff.2 readLeft, decodeLossy_eq_iff.2 readRight]
  · intro same
    exact ⟨decodeLossy left, readsAs_decodeLossy left, same ▸ readsAs_decodeLossy right⟩

/-- Bytes of characters are told apart, also when they are read leniently. -/
theorem ReadAlike.eq_of_isUtf8 (alike : ReadAlike left right) (leftUtf8 : IsUtf8 left)
    (rightUtf8 : IsUtf8 right) : left = right := by
  rcases alike with ⟨characters, readLeft, readRight⟩
  rcases leftUtf8 with ⟨leftCharacters, rfl⟩
  rcases rightUtf8 with ⟨rightCharacters, rfl⟩
  rw [← readLeft.unique (readsAs_encode leftCharacters),
    ← readRight.unique (readsAs_encode rightCharacters)]

end Reading

end IntentRouting.Text.Utf8
