import IntentRouting.Json.Reader
import IntentRouting.Json.Writer
import IntentRouting.Proofs.Number.Digits

/-!
# Strings and numbers of a document

A string is read back from what is written of it, character by character, whatever the characters are
(`stringRest?_stringTail`). A whole number is read back from its digits as long as what follows does not
go on with them (`number?_digits`), and its literal denotes it if it fits into 64 bits
(`ofLiteral?_text`).
-/

namespace IntentRouting.Json

section Strings

variable {c : Char} {rest : List Char} {steps : Nat}

theorem hexQuad?_hexDigits {n : Nat} (small : n < 0x20) (rest : List Char) :
    hexQuad? ('0' :: '0' :: hexDigit (n / 16) :: hexDigit (n % 16) :: rest) = some (n, rest) := by
  have zero : Integer.digitValue? 16 '0' = some 0 := rfl
  have high : Integer.digitValue? 16 (hexDigit (n / 16)) = some (n / 16) :=
    Integer.digitValue?_digitChar (.inr rfl) (by omega)
  have low : Integer.digitValue? 16 (hexDigit (n % 16)) = some (n % 16) :=
    Integer.digitValue?_digitChar (.inr rfl) (by omega)
  simp only [hexQuad?, zero, high, low, Option.bind_eq_bind, Option.bind_some]
  congr 2
  omega

theorem unicodeEscape?_hexDigits (small : c.toNat < 0x20) (rest : List Char) :
    unicodeEscape? ('0' :: '0' :: hexDigit (c.toNat / 16) :: hexDigit (c.toNat % 16) :: rest) =
      some (some c, rest) := by
  have notLow : isLowSurrogate c.toNat = false := by
    simp [isLowSurrogate]
    omega
  have notHigh : isHighSurrogate c.toNat = false := by
    simp [isHighSurrogate]
    omega
  simp [unicodeEscape?, hexQuad?_hexDigits small, notLow, notHigh]

/-- A character is written as a letter that stands for it, as a code point, or as it is. -/
theorem escapeChar_cases (c : Char) :
    (∃ letter, escapeChar c = ['\\', letter] ∧ simpleEscape? letter = some c) ∨
      (escapeChar c = ['\\', 'u', '0', '0', hexDigit (c.toNat / 16), hexDigit (c.toNat % 16)] ∧
        c.toNat < 0x20) ∨
      (escapeChar c = [c] ∧ c ≠ '"' ∧ c ≠ '\\' ∧ 0x20 ≤ c.toNat) := by
  by_cases marked : c ∈ ['"', '\\', '\n', '\r', '\t', Char.ofNat 8, Char.ofNat 12]
  · simp only [List.mem_cons, List.not_mem_nil, or_false] at marked
    rcases marked with rfl | rfl | rfl | rfl | rfl | rfl | rfl <;>
      exact .inl ⟨_, rfl, rfl⟩
  · simp only [List.mem_cons, List.not_mem_nil, or_false, not_or] at marked
    obtain ⟨quote, backslash, newline, return', tab, backspace, feed⟩ := marked
    have notBackspace : c.toNat ≠ 8 := fun value =>
      backspace (by rw [← value, Char.ofNat_toNat])
    have notFeed : c.toNat ≠ 12 := fun value =>
      feed (by rw [← value, Char.ofNat_toNat])
    by_cases small : c.toNat < 0x20
    · refine .inr (.inl ⟨?_, small⟩)
      simp [escapeChar, quote, backslash, newline, return', tab, notBackspace, notFeed, small]
    · refine .inr (.inr ⟨?_, quote, backslash, by omega⟩)
      simp [escapeChar, quote, backslash, newline, return', tab, notBackspace, notFeed, small]

/-- Each character of a string is read in one step, however it is written. -/
theorem stringRest?_escapeChar {text : List Char} {after : List Char} (c : Char)
    (read : stringRest? steps rest = some (some text, after)) :
    stringRest? (steps + 1) (escapeChar c ++ rest) = some (some (c :: text), after) := by
  rcases escapeChar_cases c with ⟨letter, written, stands⟩ | ⟨written, small⟩ |
    ⟨written, notQuote, notBackslash, large⟩
  · have notUnicode : letter ≠ 'u' := by
      rintro rfl
      cases stands
    simp [written, stringRest?, stands, read, prepend]
  · simp [written, stringRest?, unicodeEscape?_hexDigits small, read, prepend]
  · have notSmall : ¬c.toNat < 0x20 := by
      omega
    simp [written, stringRest?, notBackslash, notSmall, read, prepend]

/-- A string is read back from what is written behind its opening mark. -/
theorem stringRest?_stringTail (characters rest : List Char)
    (enough : (characters.flatMap escapeChar).length < steps) :
    stringRest? steps (characters.flatMap escapeChar ++ '"' :: rest) =
      some (some characters, rest) := by
  induction characters generalizing steps with
  | nil =>
      cases steps with
      | zero => cases enough
      | succ steps => simp [stringRest?]
  | cons c characters ih =>
      have written : 0 < (escapeChar c).length := by
        simp only [escapeChar]
        grind
      cases steps with
      | zero => cases enough
      | succ steps =>
          rw [List.flatMap_cons, List.length_append] at enough
          rw [List.flatMap_cons, List.append_assoc]
          apply stringRest?_escapeChar
          apply ih
          omega

end Strings

section Numbers

variable {n : Nat} {c : Char} {rest : List Char}

/-- Whether what follows a number does not go on with it. -/
def EndsNumber (rest : List Char) : Prop :=
  ∀ c ∈ rest.head?, Text.isAsciiDigit c = false ∧ c ≠ '.' ∧ c ≠ 'e' ∧ c ≠ 'E'

/-- A number other than zero does not begin with one. -/
theorem head?_toDigits (positive : 0 < n) : (Nat.toDigits 10 n).head? ≠ some '0' := by
  induction n using Nat.strong_induction_on with
  | _ n ih =>
      rw [Nat.toDigits_eq_if (by decide)]
      split
      · rename_i small
        have notZero : ∀ digit : Fin 10, 0 < digit.1 → Nat.digitChar digit ≠ '0' := by
          decide
        simpa using notZero ⟨n, small⟩ positive
      · have smaller := ih (n / 10) (by omega) (by omega)
        cases found : Nat.toDigits 10 (n / 10) with
        | nil => exact absurd found Integer.toDigits_ne_nil
        | cons first more => simpa [found] using smaller

theorem digits?_append {digits : List Char} (some' : digits ≠ [])
    (all : ∀ c ∈ digits, Text.isAsciiDigit c = true) (ends : EndsNumber rest) :
    digits? (digits ++ rest) = some (digits, rest) := by
  have stop : rest.takeWhile Text.isAsciiDigit = [] ∧ rest.dropWhile Text.isAsciiDigit = rest := by
    cases rest with
    | nil => simp
    | cons c rest => simp [(ends c rfl).1]
  simp [digits?, List.takeWhile_append_of_pos all, List.dropWhile_append_of_pos all, stop, some']

theorem wholeDigits?_toDigits (ends : EndsNumber rest) :
    wholeDigits? (Nat.toDigits 10 n ++ rest) = some (Nat.toDigits 10 n, rest) := by
  by_cases zero : n = 0
  · subst zero
    cases rest with
    | nil => rfl
    | cons c rest => simp [wholeDigits?, (ends c rfl).1]
  · have first := head?_toDigits (Nat.pos_of_ne_zero zero)
    have read := digits?_append Integer.toDigits_ne_nil
      (fun c (member : c ∈ Nat.toDigits 10 n) => Binary.isAsciiDigit_of_mem_toDigits member) ends
    rw [wholeDigits?.eq_def]
    split
    · rename_i found
      cases written : Nat.toDigits 10 n with
      | nil => exact absurd written Integer.toDigits_ne_nil
      | cons c more => simp_all
    · exact read

theorem magnitude?_toDigits (ends : EndsNumber rest) :
    magnitude? (Nat.toDigits 10 n ++ rest) = some (Nat.toDigits 10 n, rest) := by
  have noFraction : fraction? rest = some ([], rest) := by
    cases rest with
    | nil => rfl
    | cons c rest => simp [fraction?, (ends c rfl).2.1]
  have noExponent : exponent? rest = some ([], rest) := by
    cases rest with
    | nil => rfl
    | cons c rest => simp [exponent?, (ends c rfl).2.2]
  simp [magnitude?, wholeDigits?_toDigits ends, noFraction, noExponent]

/-- A whole number is read as far as its digits go. -/
theorem number?_digits (n : Int) (ends : EndsNumber rest) :
    number? (Integer.digits n ++ rest) = some (Integer.digits n, rest) := by
  have minus : '-' ∉ Nat.toDigits 10 n.natAbs :=
    Integer.notMem_toDigits (.inl rfl) (by decide) (by decide)
  rw [Integer.digits]
  split
  · simp [number?, magnitude?_toDigits ends]
  · rw [number?.eq_def]
    split
    · rename_i found
      cases written : Nat.toDigits 10 n.natAbs with
      | nil => exact absurd written Integer.toDigits_ne_nil
      | cons c more => simp_all
    · exact magnitude?_toDigits ends

namespace Numeral

theorem takeDigits_append {first before after : Nat} {digits more left : List Char}
    (read : takeDigits first digits = (before, []))
    (readMore : takeDigits before more = (after, left)) :
    takeDigits first (digits ++ more) = (after, left) := by
  induction digits generalizing first with
  | nil =>
      cases read
      exact readMore
  | cons c digits ih =>
      simp only [takeDigits, List.cons_append] at read ⊢
      split at read
      · cases read
      · rename_i within
        rw [if_neg within]
        exact ih read

theorem takeDigits_toDigits (within : n ≤ wordLimit) :
    takeDigits 0 (Nat.toDigits 10 n) = (n, []) := by
  induction n using Nat.strong_induction_on with
  | _ n ih =>
      have value : ∀ digit : Fin 10, (Nat.digitChar digit).toNat - '0'.toNat = digit.1 := by
        decide
      have last (before digit : Nat) (small : digit < 10) (within : before * 10 + digit ≤ wordLimit) :
          takeDigits before [Nat.digitChar digit] = (before * 10 + digit, []) := by
        have below := Nat.not_lt.2 within
        simp only [takeDigits, value ⟨digit, small⟩, if_neg below]
      rw [Nat.toDigits_eq_if (by decide)]
      split
      · rename_i small
        simpa using last 0 n small (by omega)
      · have whole : n / 10 * 10 + n % 10 = n := Nat.div_add_mod' n 10
        have earlier := ih (n / 10) (by omega) (by omega)
        have read := takeDigits_append earlier (last (n / 10) (n % 10) (by omega) (by omega))
        rwa [whole] at read

theorem ofMagnitude_toDigits (negative : Bool) (within : n ≤ wordLimit) :
    ofMagnitude negative (Nat.toDigits 10 n) =
      if !negative then some (.whole n)
      else if n = 0 || Nat.pow 2 63 < n then
        some (.real (signed true (Binary.ofInt .double n)))
      else some (.whole (-n)) := by
  have all (c : Char) (member : c ∈ Nat.toDigits 10 n) :=
    Binary.isAsciiDigit_of_mem_toDigits member
  have digits : (Nat.toDigits 10 n).takeWhile Text.isAsciiDigit = Nat.toDigits 10 n :=
    List.takeWhile_eq_self_iff.2 all
  have behind : (Nat.toDigits 10 n).dropWhile Text.isAsciiDigit = [] :=
    List.dropWhile_eq_nil_iff.2 all
  simp [ofMagnitude, digits, behind, takeDigits_toDigits within]

/-- The digits of a number of 64 bits denote it. -/
theorem ofLiteral?_text {n : Int} (fits : (Integer.Bounds.signed 64).Contains n) :
    ofLiteral? (Integer.text n) = some (.whole n) := by
  have low : -9223372036854775808 ≤ n := fits.1
  have high : n ≤ 9223372036854775807 := fits.2
  have limit : wordLimit = 18446744073709551615 := rfl
  rw [ofLiteral?, Integer.text, String.toList_ofList, Integer.digits]
  by_cases negative : n < 0
  · have small : ¬Nat.pow 2 63 < n.natAbs := by
      have half : Nat.pow 2 63 = 9223372036854775808 := rfl
      omega
    have notZero : n.natAbs ≠ 0 := by
      omega
    have value : -(n.natAbs : Int) = n := by
      omega
    rw [if_pos negative]
    simp only [ofMagnitude_toDigits true (show n.natAbs ≤ wordLimit by omega), small, notZero,
      value]
    rfl
  · have minus : '-' ∉ Nat.toDigits 10 n.natAbs :=
      Integer.notMem_toDigits (.inl rfl) (by decide) (by decide)
    have value : (n.natAbs : Int) = n := by
      omega
    rw [if_neg negative]
    split
    · rename_i found
      simp [found] at minus
    · simp only [ofMagnitude_toDigits false (show n.natAbs ≤ wordLimit by omega), value]
      rfl

end Numeral

end Numbers

end IntentRouting.Json
