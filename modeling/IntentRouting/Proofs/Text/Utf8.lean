import IntentRouting.Text.Utf8
import Mathlib.Data.UInt

/-!
# UTF-8 there and back

The bytes of a character are read as this character, whatever follows them, so characters are read
back from their bytes (`decode_encode`). In the other direction only sizes are compared: the
characters that are read take no more bytes than they were read from.
-/

namespace IntentRouting.Text.Utf8

variable {n : Nat} {c : Char} {characters : List Char} {first : UInt8} {bytes rest : List UInt8}

theorem toNat_ofNat_byte (small : n < 256) : (UInt8.ofNat n).toNat = n := by
  rw [UInt8.toNat_ofNat']
  omega

theorem front_one (small : n < 0x80) :
    front (.ofNat n) rest = .character (Char.ofNat n) rest := by
  have first : (UInt8.ofNat n).toNat = n := toNat_ofNat_byte (by omega)
  unfold front
  rw [if_pos, first]
  simpa [UInt8.lt_iff_toNat_lt, first] using small

theorem front_two (low : 0x80 ≤ n) (high : n < 0x800) :
    front (.ofNat (0xc0 + n / 64)) (.ofNat (0x80 + n % 64) :: rest) =
      .character (Char.ofNat n) rest := by
  have first : (UInt8.ofNat (0xc0 + n / 64)).toNat = 0xc0 + n / 64 := toNat_ofNat_byte (by omega)
  have second : (UInt8.ofNat (0x80 + n % 64)).toNat = 0x80 + n % 64 := toNat_ofNat_byte (by omega)
  have value : (0xc0 + n / 64) % 32 * 64 + (0x80 + n % 64) % 64 = n := by omega
  unfold front
  simp only [isContinuation, payload, UInt8.lt_iff_toNat_lt, UInt8.le_iff_toNat_le, first, second,
    value, UInt8.reduceToNat, Bool.and_eq_true, decide_eq_true_eq]
  rw [if_neg (by omega), if_pos (by omega), if_pos (by omega)]

/-- The second byte is an allowed one as neither overlong forms nor surrogates are written. -/
theorem isSecondByte_three (low : 0x800 ≤ n) (high : n < 0x10000)
    (scalar : n < 0xd800 ∨ 0xdfff < n) :
    isSecondByte (.ofNat (0xe0 + n / 4096)) (.ofNat (0x80 + n / 64 % 64)) = true := by
  have first : (UInt8.ofNat (0xe0 + n / 4096)).toNat = 0xe0 + n / 4096 :=
    toNat_ofNat_byte (by omega)
  have second : (UInt8.ofNat (0x80 + n / 64 % 64)).toNat = 0x80 + n / 64 % 64 :=
    toNat_ofNat_byte (by omega)
  simp only [isSecondByte, isContinuation, UInt8.le_iff_toNat_le, ← UInt8.toNat_inj, first, second,
    UInt8.reduceToNat]
  grind

theorem front_three (low : 0x800 ≤ n) (high : n < 0x10000) (scalar : n < 0xd800 ∨ 0xdfff < n) :
    front (.ofNat (0xe0 + n / 4096))
        (.ofNat (0x80 + n / 64 % 64) :: .ofNat (0x80 + n % 64) :: rest) =
      .character (Char.ofNat n) rest := by
  have first : (UInt8.ofNat (0xe0 + n / 4096)).toNat = 0xe0 + n / 4096 :=
    toNat_ofNat_byte (by omega)
  have second : (UInt8.ofNat (0x80 + n / 64 % 64)).toNat = 0x80 + n / 64 % 64 :=
    toNat_ofNat_byte (by omega)
  have third : (UInt8.ofNat (0x80 + n % 64)).toNat = 0x80 + n % 64 := toNat_ofNat_byte (by omega)
  have value : (0xe0 + n / 4096) % 16 * 4096 + (0x80 + n / 64 % 64) % 64 * 64 +
      (0x80 + n % 64) % 64 = n := by omega
  unfold front
  simp only [isSecondByte_three low high scalar, isContinuation, payload, UInt8.lt_iff_toNat_lt,
    UInt8.le_iff_toNat_le, first, second, third, value, UInt8.reduceToNat, Bool.and_eq_true,
    decide_eq_true_eq]
  rw [if_neg (by omega), if_neg (by omega), if_pos (by omega), if_neg (by simp), if_pos (by omega)]

theorem isSecondByte_four (low : 0x10000 ≤ n) (high : n < 0x110000) :
    isSecondByte (.ofNat (0xf0 + n / 262144)) (.ofNat (0x80 + n / 4096 % 64)) = true := by
  have first : (UInt8.ofNat (0xf0 + n / 262144)).toNat = 0xf0 + n / 262144 :=
    toNat_ofNat_byte (by omega)
  have second : (UInt8.ofNat (0x80 + n / 4096 % 64)).toNat = 0x80 + n / 4096 % 64 :=
    toNat_ofNat_byte (by omega)
  simp only [isSecondByte, isContinuation, UInt8.le_iff_toNat_le, ← UInt8.toNat_inj, first, second,
    UInt8.reduceToNat]
  grind

theorem front_four (low : 0x10000 ≤ n) (high : n < 0x110000) :
    front (.ofNat (0xf0 + n / 262144))
        (.ofNat (0x80 + n / 4096 % 64) :: .ofNat (0x80 + n / 64 % 64) ::
          .ofNat (0x80 + n % 64) :: rest) =
      .character (Char.ofNat n) rest := by
  have first : (UInt8.ofNat (0xf0 + n / 262144)).toNat = 0xf0 + n / 262144 :=
    toNat_ofNat_byte (by omega)
  have second : (UInt8.ofNat (0x80 + n / 4096 % 64)).toNat = 0x80 + n / 4096 % 64 :=
    toNat_ofNat_byte (by omega)
  have third : (UInt8.ofNat (0x80 + n / 64 % 64)).toNat = 0x80 + n / 64 % 64 :=
    toNat_ofNat_byte (by omega)
  have fourth : (UInt8.ofNat (0x80 + n % 64)).toNat = 0x80 + n % 64 := toNat_ofNat_byte (by omega)
  have value : (0xf0 + n / 262144) % 8 * 262144 + (0x80 + n / 4096 % 64) % 64 * 4096 +
      (0x80 + n / 64 % 64) % 64 * 64 + (0x80 + n % 64) % 64 = n := by omega
  unfold front
  simp only [isSecondByte_four low high, isContinuation, payload, UInt8.lt_iff_toNat_lt,
    UInt8.le_iff_toNat_le, first, second, third, fourth, value, UInt8.reduceToNat,
    Bool.and_eq_true, decide_eq_true_eq, Bool.not_eq_true', Bool.and_eq_false_iff]
  rw [if_neg (by omega), if_neg (by omega), if_neg (by omega), if_pos (by omega),
    if_neg (by simp), if_neg (by simp; omega), if_pos (by omega)]

/-- The bytes of a character are at the front of what follows them. -/
theorem exists_front_encodeChar (c : Char) (rest : List UInt8) :
    ∃ first more, encodeChar c = first :: more ∧ front first (more ++ rest) = .character c rest := by
  have scalar : c.toNat < 0xd800 ∨ 0xdfff < c.toNat ∧ c.toNat < 0x110000 := c.valid
  have same : Char.ofNat c.toNat = c := Char.ofNat_toNat c
  rw [encodeChar]
  split
  · rename_i small
    exact ⟨_, _, rfl, by rw [List.nil_append, front_one small, same]⟩
  split
  · rename_i low high
    refine ⟨_, _, rfl, ?_⟩
    rw [List.cons_append, List.nil_append, front_two (by omega) high, same]
  split
  · rename_i low high
    refine ⟨_, _, rfl, ?_⟩
    rw [List.cons_append, List.cons_append, List.nil_append,
      front_three (by omega) high (by omega), same]
  · refine ⟨_, _, rfl, ?_⟩
    rw [List.cons_append, List.cons_append, List.cons_append, List.nil_append,
      front_four (by omega) (by omega), same]

theorem decodeFrom_cons (index : Nat) (first : UInt8) (bytes : List UInt8) :
    decodeFrom index (first :: bytes) =
      match front first bytes with
      | .character c rest =>
          match decodeFrom (index + c.utf8Size) rest with
          | .ok characters => .ok (c :: characters)
          | .error fault => .error fault
      | .invalid size _ => .error (.invalid size index)
      | .incomplete => .error (.incomplete index) := by
  rw [decodeFrom.eq_def]
  dsimp only
  split
  · rename_i c rest found
    cases later : decodeFrom (index + c.utf8Size) rest with
    | ok characters => simp only [found, later]
    | error fault => simp only [found, later]
  · rename_i found
    simp only [found]
  · rename_i found
    simp only [found]

theorem decodeFrom_encode (characters : List Char) (index : Nat) :
    decodeFrom index (encode characters) = .ok characters := by
  induction characters generalizing index with
  | nil =>
      rw [encode, List.flatMap_nil, decodeFrom.eq_def]
  | cons c characters ih =>
      rcases exists_front_encodeChar c (encode characters) with ⟨first, more, bytes, front⟩
      have whole : encode (c :: characters) = first :: (more ++ encode characters) := by
        rw [encode, List.flatMap_cons, bytes, List.cons_append, encode]
      rw [whole, decodeFrom_cons, front]
      dsimp only
      rw [ih]

/-- Characters are read back from their bytes. -/
theorem decode_encode (characters : List Char) : decode (encode characters) = .ok characters :=
  decodeFrom_encode characters 0

/-- The number of bytes of some characters. -/
def size (characters : List Char) : Nat := (characters.map Char.utf8Size).sum

@[simp]
theorem size_nil : size [] = 0 := rfl

@[simp]
theorem size_cons : size (c :: characters) = c.utf8Size + size characters := rfl

@[simp]
theorem size_append {left right : List Char} : size (left ++ right) = size left + size right := by
  simp [size]

theorem size_le_of_infix {left right : List Char} (part : left <:+: right) :
    size left ≤ size right := by
  rcases part with ⟨before, after, rfl⟩
  simp only [size_append]
  omega

theorem utf8Size_eq (c : Char) : c.utf8Size =
    if c.toNat < 0x80 then 1 else if c.toNat < 0x800 then 2 else if c.toNat < 0x10000 then 3
      else 4 := by
  have one : c.val ≤ 0x7f ↔ c.toNat < 0x80 := by
    rw [UInt32.le_iff_toNat_le]
    exact Nat.lt_succ_iff.symm
  have two : c.val ≤ 0x7ff ↔ c.toNat < 0x800 := by
    rw [UInt32.le_iff_toNat_le]
    exact Nat.lt_succ_iff.symm
  have three : c.val ≤ 0xffff ↔ c.toNat < 0x10000 := by
    rw [UInt32.le_iff_toNat_le]
    exact Nat.lt_succ_iff.symm
  simp only [← one, ← two, ← three]
  rfl

theorem length_encodeChar (c : Char) : (encodeChar c).length = c.utf8Size := by
  simp only [utf8Size_eq, encodeChar]
  split
  · rfl
  split
  · rfl
  split
  · rfl
  · rfl

theorem toNat_ofNat_le (n : Nat) : (Char.ofNat n).toNat ≤ n := by
  by_cases valid : n.isValidChar
  · rw [Char.ofNat, dif_pos valid]
    exact Nat.le_refl n
  · rw [Char.ofNat, dif_neg valid]
    exact Nat.zero_le n

theorem utf8Size_le_one (small : n < 0x80) : (Char.ofNat n).utf8Size ≤ 1 := by
  have value := toNat_ofNat_le n
  rw [utf8Size_eq, if_pos (by omega)]

theorem utf8Size_le_two (small : n < 0x800) : (Char.ofNat n).utf8Size ≤ 2 := by
  have value := toNat_ofNat_le n
  rw [utf8Size_eq]
  split
  · omega
  · rw [if_pos (by omega)]

theorem utf8Size_le_three (small : n < 0x10000) : (Char.ofNat n).utf8Size ≤ 3 := by
  have value := toNat_ofNat_le n
  rw [utf8Size_eq]
  split
  · omega
  split
  · omega
  · rw [if_pos (by omega)]

/-- A character that is read takes no more bytes than it was read from. -/
theorem size_le_of_front (found : front first bytes = .character c rest) :
    c.utf8Size + rest.length ≤ bytes.length + 1 := by
  have payload_lt (byte : UInt8) : payload byte < 64 := Nat.mod_lt _ (by decide)
  unfold front at found
  split at found
  · rename_i small
    cases found
    have size := utf8Size_le_one (UInt8.lt_iff_toNat_lt.1 small)
    omega
  split at found
  · cases bytes with
    | nil => cases found
    | cons second bytes =>
        dsimp only at found
        split at found
        · cases found
          have bound := payload_lt second
          have size : (Char.ofNat (first.toNat % 32 * 64 + payload second)).utf8Size ≤ 2 :=
            utf8Size_le_two (by omega)
          simp only [List.length_cons]
          omega
        · cases found
  split at found
  · split at found
    · cases found
    · split at found
      · cases found
      · cases found
    · rename_i second third bytes
      split at found
      · cases found
      split at found
      · cases found
        have bound := payload_lt second
        have bound' := payload_lt third
        have size : (Char.ofNat (first.toNat % 16 * 4096 + payload second * 64 +
            payload third)).utf8Size ≤ 3 := utf8Size_le_three (by omega)
        simp only [List.length_cons]
        omega
      · cases found
  split at found
  · split at found
    · cases found
    · split at found
      · cases found
      · cases found
    · split at found
      · cases found
      split at found
      · cases found
      · cases found
    · split at found
      · cases found
      split at found
      · cases found
      split at found
      · cases found
        rw [Nat.add_comm]
        exact Nat.add_le_add_left (Char.utf8Size_le_four _) rest.length
      · cases found
  · cases found

theorem size_le_of_decodeFrom {index : Nat} (read : decodeFrom index bytes = .ok characters) :
    size characters ≤ bytes.length := by
  induction count : bytes.length using Nat.strong_induction_on
    generalizing index bytes characters with
  | _ count ih =>
      subst count
      cases bytes with
      | nil =>
          rw [decodeFrom.eq_def] at read
          cases read
          exact Nat.le_refl 0
      | cons first bytes =>
          rw [decodeFrom_cons] at read
          split at read
          · rename_i c rest found
            have front := size_le_of_front found
            split at read
            · rename_i tail readTail
              cases read
              have shorter : rest.length < (first :: bytes).length := by
                rw [List.length_cons]
                exact Nat.lt_succ_of_le (length_le_of_front_character found)
              have later := ih rest.length shorter readTail rfl
              simp only [size_cons, List.length_cons]
              omega
            · cases read
          · cases read
          · cases read

end IntentRouting.Text.Utf8
