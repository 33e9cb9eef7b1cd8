import IntentRouting.Bounds
import IntentRouting.Number.Shortest
import Mathlib.Data.List.TakeWhile
import Mathlib.Data.Nat.Digits.Defs

/-!
# Numbers there and back

A whole number is read back from its digits within every range that holds it
(`Integer.parse?_text`), and so are the four sides of a rectangle (`Bounds.parse_text`). What is
written of a floating-point number can always be read; that it is the same number again is not
claimed here.
-/

namespace IntentRouting

namespace Integer

variable {base limit n : Nat} {c : Char} {bounds : Bounds}

/-- The bases in which numbers are written. -/
def IsBase (base : Nat) : Prop := base = 10 ∨ base = 16

theorem digitValue?_digitChar (written : IsBase base) (small : n < base) :
    digitValue? base (Nat.digitChar n) = some n := by
  have decimal : ∀ n : Fin 10, digitValue? 10 (Nat.digitChar n) = some n.1 := by
    decide
  have hexadecimal : ∀ n : Fin 16, digitValue? 16 (Nat.digitChar n) = some n.1 := by
    decide
  rcases written with rfl | rfl
  · exact decimal ⟨n, small⟩
  · exact hexadecimal ⟨n, small⟩

theorem IsBase.one_lt (written : IsBase base) : 1 < base := by
  rcases written with rfl | rfl
  · decide
  · decide

theorem exists_digit_of_mem_toDigits (written : IsBase base) (member : c ∈ Nat.toDigits base n) :
    ∃ digit < base, c = Nat.digitChar digit := by
  induction n using Nat.strong_induction_on with
  | _ n ih =>
      rw [Nat.toDigits_eq_if written.one_lt] at member
      have positive := Nat.zero_lt_of_lt written.one_lt
      split at member
      · rename_i small
        exact ⟨n, small, List.mem_singleton.1 member⟩
      · rename_i large
        rw [List.mem_append, List.mem_singleton] at member
        rcases member with earlier | last
        · exact ih (n / base) (Nat.div_lt_self (by omega) written.one_lt) earlier
        · exact ⟨n % base, Nat.mod_lt n positive, last⟩

theorem digitValue?_isSome_of_mem_toDigits (written : IsBase base)
    (member : c ∈ Nat.toDigits base n) : (digitValue? base c).isSome = true := by
  rcases exists_digit_of_mem_toDigits written member with ⟨digit, small, rfl⟩
  rw [digitValue?_digitChar written small]
  rfl

/-- What is no digit in either base is not among digits. -/
theorem notMem_toDigits (written : IsBase base) (decimal : digitValue? 10 c = none)
    (hexadecimal : digitValue? 16 c = none) : c ∉ Nat.toDigits base n := by
  intro member
  have digit := digitValue?_isSome_of_mem_toDigits written member
  rcases written with rfl | rfl
  · rw [decimal] at digit
    cases digit
  · rw [hexadecimal] at digit
    cases digit

theorem readDigits_append {overflow : IntegerFault} {first before after : Nat}
    {digits more : List Char} (read : readDigits base limit overflow first digits = .ok before)
    (readMore : readDigits base limit overflow before more = .ok after) :
    readDigits base limit overflow first (digits ++ more) = .ok after := by
  induction digits generalizing first with
  | nil =>
      cases read
      exact readMore
  | cons c digits ih =>
      rw [readDigits] at read
      rw [List.cons_append, readDigits]
      split at read
      · cases read
      · rename_i digit value
        dsimp only at read ⊢
        split at read
        · rename_i within
          rw [if_pos within]
          exact ih read
        · cases read

theorem readDigits_toDigits {overflow : IntegerFault} (written : IsBase base) (within : n ≤ limit) :
    readDigits base limit overflow 0 (Nat.toDigits base n) = .ok n := by
  induction n using Nat.strong_induction_on with
  | _ n ih =>
      have last (before digit : Nat) (small : digit < base)
          (within : before * base + digit ≤ limit) :
          readDigits base limit overflow before [Nat.digitChar digit] =
            .ok (before * base + digit) := by
        simp [readDigits, digitValue?_digitChar written small, within]
      have positive := Nat.zero_lt_of_lt written.one_lt
      rw [Nat.toDigits_eq_if written.one_lt]
      split
      · rename_i small
        simpa using last 0 n small (by omega)
      · rename_i large
        have smaller : n / base < n := Nat.div_lt_self (by omega) written.one_lt
        have whole : n / base * base + n % base = n := Nat.div_add_mod' n base
        have read := readDigits_append (ih (n / base) smaller (by omega))
          (last (n / base) (n % base) (Nat.mod_lt n positive) (by omega))
        rwa [whole] at read

theorem toDigits_ne_nil : Nat.toDigits base n ≠ [] :=
  List.ne_nil_of_length_pos Nat.length_toDigits_pos

theorem readMagnitude_toDigits {overflow : IntegerFault} (written : IsBase base)
    (within : n ≤ limit) :
    readMagnitude base limit overflow (Nat.toDigits base n) = .ok n := by
  rw [readMagnitude.eq_def]
  split
  · rename_i empty
    exact absurd empty toDigits_ne_nil
  · exact readDigits_toDigits written within

/-- A number is read back from its digits. -/
theorem read_toDigits (written : IsBase base) (within : (n : Int) ≤ bounds.highest) :
    read base bounds (Nat.toDigits base n) = .ok n := by
  have plus : '+' ∉ Nat.toDigits base n := notMem_toDigits written (by decide) (by decide)
  have minus : '-' ∉ Nat.toDigits base n := notMem_toDigits written (by decide) (by decide)
  have magnitude : readMagnitude base bounds.highest.toNat .tooLarge (Nat.toDigits base n) = .ok n :=
    readMagnitude_toDigits written (by omega)
  rw [read.eq_def]
  split
  · rename_i empty
    exact absurd empty toDigits_ne_nil
  · rename_i found
    exact absurd (by simp [found]) plus
  · rename_i found
    exact absurd (by simp [found]) minus
  · rw [magnitude]
    rfl

theorem read_digits {n : Int} (within : bounds.Contains n) : read 10 bounds (digits n) = .ok n := by
  rw [digits]
  split
  · rename_i negative
    have lowest : bounds.lowest < 0 := Int.lt_of_le_of_lt within.1 negative
    have small : n.natAbs ≤ (-bounds.lowest).toNat := by
      have low := within.1
      omega
    rw [read, if_pos lowest, readMagnitude_toDigits (.inl rfl) small]
    have value : -(n.natAbs : Int) = n := by
      omega
    exact congrArg Except.ok value
  · rename_i notNegative
    have value : (n.natAbs : Int) = n := Int.natAbs_of_nonneg (Int.not_lt.1 notNegative)
    have high := within.2
    rw [read_toDigits (.inl rfl) (by omega), value]

/-- A number is read back from its text, within every range that holds it. -/
theorem parse?_text {n : Int} (within : bounds.Contains n) : parse? bounds (text n) = some n := by
  rw [parse?, parse, text, String.toList_ofList, read_digits within]
  rfl

end Integer

namespace Text

variable {word : List Char} {rest : List Char}

theorem foldr_step_gap {read : List (List Char)} (noBlank : ∀ c ∈ word, isBlank c = false) :
    word.foldr words.step ([] :: read) = word :: read := by
  induction word with
  | nil => rfl
  | cons c word ih =>
      rw [List.forall_mem_cons] at noBlank
      simp [ih noBlank.2, words.step, noBlank.1]

theorem foldr_step_nil (someText : word ≠ []) (noBlank : ∀ c ∈ word, isBlank c = false) :
    word.foldr words.step [] = [word] := by
  induction word with
  | nil => exact absurd rfl someText
  | cons c word ih =>
      rw [List.forall_mem_cons] at noBlank
      cases word with
      | nil => simp [words.step, noBlank.1]
      | cons c' word =>
          rw [List.foldr_cons, ih (List.cons_ne_nil _ _) noBlank.2]
          simp [words.step, noBlank.1]

theorem words_of_noBlank (someText : word ≠ []) (noBlank : ∀ c ∈ word, isBlank c = false) :
    words word = [word] := by
  rw [words, foldr_step_nil someText noBlank]
  simp [someText]

/-- A word before a space is followed by the words behind the space. -/
theorem words_append_space (someText : word ≠ []) (noBlank : ∀ c ∈ word, isBlank c = false) :
    words (word ++ ' ' :: rest) = word :: words rest := by
  have space : isBlank ' ' = true := rfl
  rw [words, words, List.foldr_append, List.foldr_cons]
  cases rest.foldr words.step [] with
  | nil =>
      have nothing : words.step ' ' [] = [] := by
        simp [words.step, space]
      rw [nothing, foldr_step_nil someText noBlank]
      simp [someText]
  | cons next read =>
      have gap : words.step ' ' (next :: read) = [] :: next :: read := by
        simp [words.step, space]
      rw [gap, foldr_step_gap noBlank]
      simp [someText]

end Text

namespace Bounds

theorem digits_ne_nil (n : Int) : Integer.digits n ≠ [] := by
  rw [Integer.digits]
  split
  · exact List.cons_ne_nil _ _
  · exact Integer.toDigits_ne_nil

theorem isBlank_of_mem_digits (n : Int) : ∀ c ∈ Integer.digits n, Text.isBlank c = false := by
  have noBlank : ∀ c ∈ Nat.toDigits 10 n.natAbs, Text.isBlank c = false := by
    intro c member
    have all : ∀ digit : Fin 10, Text.isBlank (Nat.digitChar digit) = false := by
      decide
    rcases Integer.exists_digit_of_mem_toDigits (.inl rfl) member with ⟨digit, small, rfl⟩
    exact all ⟨digit, small⟩
  rw [Integer.digits]
  split
  · rw [List.forall_mem_cons]
    exact ⟨rfl, noBlank⟩
  · exact noBlank

theorem read_digits_side (side : Int32) :
    Integer.read 10 sides (Integer.digits side.toInt) = .ok side.toInt :=
  Integer.read_digits ⟨side.le_toInt, Int.le_sub_one_of_lt side.toInt_lt⟩

theorem readSides_digits (numbers : List Int32) :
    readSides (numbers.map fun side => Integer.digits side.toInt) = .ok numbers := by
  induction numbers with
  | nil => rfl
  | cons side numbers ih =>
      rw [List.map_cons, readSides, read_digits_side, ih]
      simp [Except.map]

/-- A rectangle is read back from its text. -/
theorem parse_text (bounds : Bounds) : parse bounds.text = .ok bounds := by
  have words : Text.words bounds.text.toList =
      [bounds.left, bounds.top, bounds.right, bounds.bottom].map
        fun side => Integer.digits side.toInt := by
    have next (rest : List Char) (side : Int32) :
        Text.words (Integer.digits side.toInt ++ ' ' :: rest) =
          Integer.digits side.toInt :: Text.words rest :=
      Text.words_append_space (digits_ne_nil side.toInt) (isBlank_of_mem_digits side.toInt)
    have last (side : Int32) :=
      Text.words_of_noBlank (digits_ne_nil side.toInt) (isBlank_of_mem_digits side.toInt)
    rw [text, String.toList_ofList]
    simp only [List.map_cons, List.map_nil, Text.join, List.append_assoc, List.cons_append,
      List.nil_append, next, last]
  rw [parse, words, readSides_digits]

end Bounds

namespace Binary

variable {format : Format} {negative : Bool} {whole fraction : List Char}

theorem isAsciiDigit_of_mem_toDigits {n : Nat} {c : Char} (member : c ∈ Nat.toDigits 10 n) :
    Text.isAsciiDigit c = true := by
  have all : ∀ digit : Fin 10, Text.isAsciiDigit (Nat.digitChar digit) = true := by
    decide
  rcases Integer.exists_digit_of_mem_toDigits (.inl rfl) member with ⟨digit, small, rfl⟩
  exact all ⟨digit, small⟩

/-- The point of a number that is not whole, with the digits behind it. -/
def fractionChars (fraction : List Char) : List Char :=
  if fraction.isEmpty then [] else '.' :: fraction

theorem isSome_readDecimal (someDigit : whole ≠ [])
    (wholeDigits : ∀ c ∈ whole, Text.isAsciiDigit c = true)
    (fractionDigits : ∀ c ∈ fraction, Text.isAsciiDigit c = true) :
    (readDecimal format negative (whole ++ fractionChars fraction)).isSome = true := by
  have ends : (fractionChars fraction).takeWhile Text.isAsciiDigit = [] := by
    rw [fractionChars]
    split
    · rfl
    · rfl
  have point : (fractionChars fraction).dropWhile Text.isAsciiDigit = fractionChars fraction := by
    rw [fractionChars]
    split
    · rfl
    · rfl
  have first : (whole ++ fractionChars fraction).takeWhile Text.isAsciiDigit = whole := by
    rw [List.takeWhile_append_of_pos wholeDigits, ends, List.append_nil]
  have behind : (whole ++ fractionChars fraction).dropWhile Text.isAsciiDigit =
      fractionChars fraction := by
    rw [List.dropWhile_append_of_pos wholeDigits, point]
  have nonempty : whole.isEmpty = false := List.isEmpty_eq_false_iff.2 someDigit
  have last : fraction.dropWhile Text.isAsciiDigit = [] :=
    List.dropWhile_eq_nil_iff.2 fractionDigits
  rw [readDecimal, first, behind]
  cases empty : fraction.isEmpty with
  | true => simp [fractionChars, empty, nonempty]
  | false => simp [fractionChars, empty, nonempty, last]

theorem isSome_readMagnitude (someDigit : whole ≠ [])
    (wholeDigits : ∀ c ∈ whole, Text.isAsciiDigit c = true)
    (fractionDigits : ∀ c ∈ fraction, Text.isAsciiDigit c = true) :
    (readMagnitude format negative (whole ++ fractionChars fraction)).isSome = true := by
  rw [readMagnitude]
  split
  · rfl
  split
  · rfl
  · exact isSome_readDecimal someDigit wholeDigits fractionDigits

theorem isSome_parse?_decimal (negative : Bool) (someDigit : whole ≠ [])
    (wholeDigits : ∀ c ∈ whole, Text.isAsciiDigit c = true)
    (fractionDigits : ∀ c ∈ fraction, Text.isAsciiDigit c = true) :
    (parse? format (String.ofList (signText negative ++ whole ++ fractionChars fraction))).isSome =
      true := by
  have magnitude (negative : Bool) :
      (readMagnitude format negative (whole ++ fractionChars fraction)).isSome = true :=
    isSome_readMagnitude someDigit wholeDigits fractionDigits
  rw [parse?, String.toList_ofList, List.append_assoc]
  cases negative with
  | true => exact magnitude true
  | false =>
      rw [signText, if_neg (by decide), List.nil_append]
      split
      · rename_i characters sign
        cases whole with
        | nil => exact absurd rfl someDigit
        | cons c whole =>
            cases sign
            exact absurd (wholeDigits '-' (List.mem_cons_self ..)) (by decide)
      · rename_i characters sign
        cases whole with
        | nil => exact absurd rfl someDigit
        | cons c whole =>
            cases sign
            exact absurd (wholeDigits '+' (List.mem_cons_self ..)) (by decide)
      · exact magnitude false

/-- The digits of a number without an exponent, before and behind the point. -/
theorem positional_digits (decimal : Decimal) : (positional decimal).1 ≠ [] ∧
    (∀ c ∈ (positional decimal).1, Text.isAsciiDigit c = true) ∧
      ∀ c ∈ (positional decimal).2, Text.isAsciiDigit c = true := by
  have digit (c : Char) (member : c ∈ Nat.toDigits 10 decimal.coefficient) :=
    isAsciiDigit_of_mem_toDigits member
  have zero : Text.isAsciiDigit '0' = true := rfl
  have someDigit : Nat.toDigits 10 decimal.coefficient ≠ [] := Integer.toDigits_ne_nil
  rw [positional]
  split
  · refine ⟨?_, ?_, ?_⟩
    · simp [someDigit]
    · intro c member
      rcases List.mem_append.1 member with written | padding
      · exact digit c written
      · rw [List.eq_of_mem_replicate padding]
        exact zero
    · simp
  dsimp only
  split
  · rename_i places
    refine ⟨?_, ?_, ?_⟩
    · rw [Ne, List.take_eq_nil_iff, not_or]
      exact ⟨by omega, someDigit⟩
    · intro c member
      exact digit c (List.mem_of_mem_take member)
    · intro c member
      exact digit c (List.mem_of_mem_drop member)
  · refine ⟨List.cons_ne_nil _ _, ?_, ?_⟩
    · simp [zero]
    · intro c member
      rcases List.mem_append.1 member with padding | written
      · rw [List.eq_of_mem_replicate padding]
        exact zero
      · exact digit c written

/-- What is written of a number can be read. -/
theorem isSome_parse?_plainText (format : Format) (number : Binary) :
    (parse? format (number.plainText format)).isSome = true := by
  cases number with
  | nan => simp [plainText, parse?, readMagnitude, Text.asciiLower]
  | infinite negative =>
      cases negative with
      | true => simp [plainText, parse?, readMagnitude, Text.asciiLower]
      | false => simp [plainText, parse?, readMagnitude, Text.asciiLower]
  | finite negative significand exponent =>
      rw [plainText]
      split
      · have zero : Text.isAsciiDigit '0' = true := rfl
        have read : (parse? format
            (String.ofList (signText negative ++ ['0'] ++ fractionChars []))).isSome = true :=
          isSome_parse?_decimal negative (by simp) (by simp [zero]) (by simp)
        simpa [fractionChars] using read
      · rcases positional_digits (shortest format .up significand exponent) with
          ⟨someDigit, wholeDigits, fractionDigits⟩
        exact isSome_parse?_decimal negative someDigit wholeDigits fractionDigits

end Binary

end IntentRouting
