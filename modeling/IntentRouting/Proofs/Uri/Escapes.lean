import IntentRouting.Proofs.Text.Utf8
import IntentRouting.Proofs.Uri.Grammar
import IntentRouting.Uri.Percent

/-!
# Escapes there and back

Escaped characters are read back (`decode_encodeChars`), and none of the characters that divide a
link occurs among them (`notMem_encodeChars`). Reading may only make a text shorter
(`size_le_of_decode`).

So every text can be written in a small alphabet: it is read back from characters that stand for
themselves and from escapes of three characters (`Uri.encode_is_read_back`).
-/

namespace IntentRouting.Uri

variable {c : Char} {characters rest : List Char}

/-- The value of every hexadecimal digit that is written. -/
theorem digitValue?_hexDigit {n : Nat} (small : n < 16) :
    Integer.digitValue? 16 (hexDigit n) = some n := by
  have all : ∀ n : Fin 16, Integer.digitValue? 16 (hexDigit n) = some n.1 := by
    decide
  exact all ⟨n, small⟩

theorem isUnreserved_hexDigit {n : Nat} (small : n < 16) : isUnreserved (hexDigit n) = true := by
  have all : ∀ n : Fin 16, isUnreserved (hexDigit n) = true := by
    decide
  exact all ⟨n, small⟩

theorem escapedByte?_hexDigit (byte : UInt8) :
    escapedByte? (hexDigit (byte.toNat / 16)) (hexDigit (byte.toNat % 16)) = some byte := by
  have bound := byte.toNat_lt
  have whole : byte.toNat / 16 * 16 + byte.toNat % 16 = byte.toNat := Nat.div_add_mod' _ _
  have high : Integer.digitValue? 16 (hexDigit (byte.toNat / 16)) = some (byte.toNat / 16) :=
    digitValue?_hexDigit (by omega)
  have low : Integer.digitValue? 16 (hexDigit (byte.toNat % 16)) = some (byte.toNat % 16) :=
    digitValue?_hexDigit (by omega)
  rw [escapedByte?, high, low]
  show some (UInt8.ofNat (byte.toNat / 16 * 16 + byte.toNat % 16)) = some byte
  rw [whole, UInt8.ofNat_toNat]

theorem decodeBytes_escapeByte (byte : UInt8) (rest : List Char) :
    decodeBytes (escapeByte byte ++ rest) = byte :: decodeBytes rest := by
  simp [escapeByte, decodeBytes, escapedByte?_hexDigit]

theorem decodeBytes_cons (notPercent : c ≠ '%') :
    decodeBytes (c :: rest) = Text.Utf8.encodeChar c ++ decodeBytes rest := by
  rw [decodeBytes]
  intro _ _ _ percent
  cases percent
  exact absurd rfl notPercent

theorem decodeBytes_escapeBytes (bytes : List UInt8) (rest : List Char) :
    decodeBytes (bytes.flatMap escapeByte ++ rest) = bytes ++ decodeBytes rest := by
  induction bytes with
  | nil => rfl
  | cons byte bytes ih =>
      rw [List.flatMap_cons, List.append_assoc, decodeBytes_escapeByte, ih, List.cons_append]

theorem decodeBytes_encodeChar (c : Char) (rest : List Char) :
    decodeBytes (encodeChar c ++ rest) = Text.Utf8.encodeChar c ++ decodeBytes rest := by
  rw [encodeChar]
  split
  · rename_i unreserved
    apply decodeBytes_cons
    rintro rfl
    cases unreserved
  · exact decodeBytes_escapeBytes _ rest

/-- Escaped characters stand for their own bytes, whatever follows them. -/
theorem decodeBytes_encodeChars (characters rest : List Char) :
    decodeBytes (encodeChars characters ++ rest) =
      Text.Utf8.encode characters ++ decodeBytes rest := by
  induction characters with
  | nil => rfl
  | cons c characters ih =>
      have first : encodeChars (c :: characters) = encodeChar c ++ encodeChars characters := rfl
      rw [first, List.append_assoc, decodeBytes_encodeChar, ih, Text.Utf8.encode, Text.Utf8.encode,
        List.flatMap_cons, List.append_assoc]

theorem decodeBytes_of_notMem (absent : '%' ∉ characters) :
    decodeBytes characters = Text.Utf8.encode characters := by
  induction characters with
  | nil => rfl
  | cons c characters ih =>
      rw [List.mem_cons, not_or] at absent
      rw [decodeBytes_cons (Ne.symm absent.1), ih absent.2]
      rfl

theorem decode_of_decodeBytes {characters' : List Char}
    (bytes : decodeBytes characters = Text.Utf8.encode characters') :
    decode (String.ofList characters) = .ok (String.ofList characters') := by
  rw [decode, String.toList_ofList, decodeChars, bytes, Text.Utf8.decode_encode]

/-- Escaped characters are read back. -/
theorem decode_encodeChars (characters : List Char) :
    decode (String.ofList (encodeChars characters)) = .ok (String.ofList characters) := by
  have bytes := decodeBytes_encodeChars characters []
  rw [List.append_nil] at bytes
  apply decode_of_decodeBytes
  rw [bytes, decodeBytes, List.append_nil]

/-- What holds no percent sign stands for itself. -/
theorem decode_of_notMem (absent : '%' ∉ characters) :
    decode (String.ofList characters) = .ok (String.ofList characters) :=
  decode_of_decodeBytes (decodeBytes_of_notMem absent)

theorem isUnreserved_of_mem_encodeChars (written : c ∈ encodeChars characters) :
    isUnreserved c = true ∨ c = '%' := by
  rw [encodeChars, List.mem_flatMap] at written
  rcases written with ⟨origin, _, written⟩
  rw [encodeChar] at written
  split at written
  · rename_i unreserved
    rw [List.mem_singleton] at written
    exact .inl (written ▸ unreserved)
  · rw [List.mem_flatMap] at written
    rcases written with ⟨byte, _, written⟩
    have bound := byte.toNat_lt
    simp only [escapeByte, List.mem_cons, List.not_mem_nil, or_false] at written
    rcases written with rfl | rfl | rfl
    · exact .inr rfl
    · exact .inl (isUnreserved_hexDigit (by omega))
    · exact .inl (isUnreserved_hexDigit (by omega))

/-- A character that divides text is never among escaped ones. -/
theorem notMem_encodeChars (reserved : isUnreserved c = false) (notPercent : c ≠ '%') :
    c ∉ encodeChars characters := by
  intro written
  rcases isUnreserved_of_mem_encodeChars written with unreserved | percent
  · rw [reserved] at unreserved
    cases unreserved
  · exact notPercent percent

@[simp]
theorem encodeChars_eq_nil_iff : encodeChars characters = [] ↔ characters = [] := by
  rw [encodeChars, List.flatMap_eq_nil_iff]
  constructor
  · intro nothing
    cases characters with
    | nil => rfl
    | cons c characters =>
        have bytes := Text.Utf8.exists_front_encodeChar c []
        have none := nothing c (List.mem_cons_self ..)
        rw [encodeChar] at none
        split at none
        · cases none
        · rcases bytes with ⟨first, more, bytes, _⟩
          rw [bytes] at none
          cases none
  · rintro rfl
    simp

theorem length_decodeBytes_le (characters : List Char) :
    (decodeBytes characters).length ≤ Text.Utf8.size characters := by
  fun_induction decodeBytes characters with
  | case1 high low rest byte escaped ih =>
      have one (c : Char) : 0 < c.utf8Size := c.utf8Size_pos
      simp only [List.length_cons, Text.Utf8.size_cons]
      have := one high
      omega
  | case2 high low rest escaped ih =>
      rw [List.length_append, Text.Utf8.length_encodeChar, Text.Utf8.size_cons]
      exact Nat.add_le_add_left ih _
  | case3 c rest _ ih =>
      rw [List.length_append, Text.Utf8.length_encodeChar, Text.Utf8.size_cons]
      exact Nat.add_le_add_left ih _
  | case4 => exact Nat.le_refl 0

/-- Reading escapes may make a text shorter, but never longer. -/
theorem size_le_of_decode {text decoded : String} (read : decode text = .ok decoded) :
    Text.Utf8.size decoded.toList ≤ Text.Utf8.size text.toList := by
  rw [decode] at read
  split at read
  · rename_i characters found
    cases read
    rw [String.toList_ofList]
    exact (Text.Utf8.size_le_of_decodeFrom found).trans (length_decodeBytes_le text.toList)
  · cases read

section Alphabet

theorem isForbidden_of_mem_encodeChars (written : c ∈ encodeChars characters) :
    isForbidden c = false := by
  have ofMarks : marks.any isForbidden = false := by
    decide
  rcases isUnreserved_of_mem_encodeChars written with unreserved | rfl
  · simp only [isUnreserved, Bool.or_eq_true, List.contains_iff_mem] at unreserved
    rcases unreserved with alphanumeric | mark
    · apply (of_isSchemeChar _).1
      simp [isSchemeChar, alphanumeric]
    · simpa using List.any_eq_false.1 ofMarks c mark
  · rfl

/-- A character in the place of a hexadecimal digit. -/
def isEscapeDigit (c : Char) : Bool := ('0' ≤ c && c ≤ '9') || ('A' ≤ c && c ≤ 'F')

/-- What escaped text is made of: characters that stand for themselves, and escapes, which are a
percent sign and two digits. -/
inductive IsEscaped : List Char → Prop
  | nil : IsEscaped []
  | plain {c : Char} {rest : List Char}
      (allowed : Text.isAsciiAlphanumeric c = true ∨
        c ∈ ['_', '-', '!', '.', '~', '\'', '(', ')', '*'])
      (more : IsEscaped rest) : IsEscaped (c :: rest)
  | escape {high low : Char} {rest : List Char} (highDigit : isEscapeDigit high = true)
      (lowDigit : isEscapeDigit low = true) (more : IsEscaped rest) :
      IsEscaped ('%' :: high :: low :: rest)

theorem IsEscaped.append (left : IsEscaped characters) (right : IsEscaped rest) :
    IsEscaped (characters ++ rest) := by
  induction left with
  | nil => exact right
  | plain allowed _ ih => exact .plain allowed ih
  | escape high low _ ih => exact .escape high low ih

theorem isEscaped_escapeByte (byte : UInt8) : IsEscaped (escapeByte byte) := by
  have bound := byte.toNat_lt
  have digit : ∀ n : Fin 16, isEscapeDigit (hexDigit n) = true := by
    decide
  exact .escape (digit ⟨byte.toNat / 16, by omega⟩) (digit ⟨byte.toNat % 16, by omega⟩) .nil

theorem isEscaped_encodeChar (c : Char) : IsEscaped (encodeChar c) := by
  rw [encodeChar]
  split
  · rename_i unreserved
    rw [isUnreserved, Bool.or_eq_true, List.contains_iff_mem] at unreserved
    exact .plain unreserved .nil
  · induction Text.Utf8.encodeChar c with
    | nil => exact .nil
    | cons byte bytes ih =>
        rw [List.flatMap_cons]
        exact (isEscaped_escapeByte byte).append ih

theorem isEscaped_encodeChars (characters : List Char) : IsEscaped (encodeChars characters) := by
  induction characters with
  | nil => exact .nil
  | cons c characters ih => exact (isEscaped_encodeChar c).append ih

/-- Texts that are escaped alike are equal, because each is read back. -/
theorem encode_injective : Function.Injective encode := by
  intro left right same
  have leftRead := decode_encodeChars left.toList
  have rightRead := decode_encodeChars right.toList
  rw [encode, encode, Text.onChars, Text.onChars] at same
  rw [same, rightRead] at leftRead
  simpa using leftRead.symm

/-- Every text is read back from its escaped form. This is made of letters, digits, nine marks and
escapes, so nothing that divides a URI or a link stands in it, and no blank either; and no two texts
have the same one. -/
theorem encode_is_read_back :
    (∀ text, decode (encode text) = .ok text) ∧
    (∀ text, IsEscaped (encode text).toList) ∧
    (∀ text, ∀ c ∈ (encode text).toList,
      c ∉ [';', '=', '#', '/', '?', '&', ':'] ∧ Text.isBlank c = false) ∧
    Function.Injective encode := by
  refine ⟨?_, ?_, ?_, encode_injective⟩
  · intro text
    rw [encode, Text.onChars, decode_encodeChars, String.ofList_toList]
  · intro text
    rw [encode, Text.onChars, String.toList_ofList]
    exact isEscaped_encodeChars text.toList
  · intro text c written
    rw [encode, Text.onChars, String.toList_ofList] at written
    refine ⟨fun mark => ?_, ?_⟩
    · have divides : isUnreserved c = false ∧ c ≠ '%' := by
        simp only [List.mem_cons, List.not_mem_nil, or_false] at mark
        rcases mark with rfl | rfl | rfl | rfl | rfl | rfl | rfl <;> exact ⟨by decide, by decide⟩
      exact notMem_encodeChars divides.1 divides.2 written
    · have allowed := isForbidden_of_mem_encodeChars written
      rw [isForbidden, Bool.or_eq_false_iff] at allowed
      exact allowed.1

/-- A space and a letter outside ASCII. -/
example : encode "a é" = "a%20%C3%A9" := by
  decide

end Alphabet

end IntentRouting.Uri
