import IntentRouting.Number.Integer
import IntentRouting.Text.Split

/-!
# Binary floating-point numbers

A number of a binary floating-point format is kept as what it denotes: a sign, a whole significand
and a power of two. Rounding takes an exact fraction to the nearest number of the format, ties to an
even significand, and everything else rests on it: reading a decimal text rounds its exact value
once, so a single-precision number is not rounded through double precision first.
-/

namespace IntentRouting

/-- A number of some binary floating-point format. -/
inductive Binary where
  | nan
  | infinite (negative : Bool)
  /-- The value `significand * 2 ^ exponent`, with a sign that zero has too. -/
  | finite (negative : Bool) (significand : Nat) (exponent : Int)
deriving DecidableEq, Repr

namespace Binary

/-- The sizes of a format: significands stay below `2 ^ precision`, exponents within two bounds. -/
structure Format where
  precision : Nat
  lowestExponent : Int
  highestExponent : Int
deriving DecidableEq, Repr

/-- Single precision: 32 bits. -/
def Format.single : Format := ⟨24, -149, 104⟩

/-- Double precision: 64 bits. -/
def Format.double : Format := ⟨53, -1074, 971⟩

def zero (negative : Bool) : Binary := .finite negative 0 0

/-- The nearest whole number to a fraction, and the even one of two that are equally near. -/
def roundToEven (numerator denominator : Nat) : Nat :=
  let quotient := numerator / denominator
  let twice := 2 * (numerator % denominator)
  if twice < denominator then quotient
  else if denominator < twice then quotient + 1
  else if quotient % 2 = 0 then quotient else quotient + 1

/-- A fraction divided by a power of two, as a fraction. -/
def scaleDown (numerator denominator : Nat) (exponent : Int) : Nat × Nat :=
  if 0 ≤ exponent then (numerator, denominator * Nat.pow 2 exponent.toNat)
  else (numerator * Nat.pow 2 (-exponent).toNat, denominator)

/-- The number of a format nearest to a fraction. -/
def round (format : Format) (negative : Bool) (numerator denominator : Nat) : Binary :=
  if numerator = 0 then zero negative
  else
    let estimate : Int := (Nat.log2 numerator : Int) - Nat.log2 denominator - format.precision
    let low := max estimate format.lowestExponent
    let scaled := scaleDown numerator denominator low
    let exponent := if scaled.1 / scaled.2 < Nat.pow 2 format.precision then low else low + 1
    let scaled := scaleDown numerator denominator exponent
    let significand := roundToEven scaled.1 scaled.2
    let (significand, exponent) :=
      if significand = Nat.pow 2 format.precision then (significand / 2, exponent + 1)
      else (significand, exponent)
    if significand = 0 then zero negative
    else if format.highestExponent < exponent then .infinite negative
    else .finite negative significand exponent

/-- The number of a format nearest to a whole number. -/
def ofInt (format : Format) (n : Int) : Binary := round format (n < 0) n.natAbs 1

/-- A number of one format rounded to another. -/
def convert (format : Format) : Binary → Binary
  | .finite negative significand exponent =>
      if 0 ≤ exponent then round format negative (significand * Nat.pow 2 exponent.toNat) 1
      else round format negative significand (Nat.pow 2 (-exponent).toNat)
  | other => other

/-- The value `significand * 10 ^ exponent` rounded once. Exponents far outside every format give
infinity and zero without computing the power. -/
def ofDecimal (format : Format) (negative : Bool) (significand : Nat) (exponent : Int) : Binary :=
  if significand = 0 then zero negative
  else
    let magnitude : Int := (Nat.toDigits 10 significand).length + exponent
    if 400 < magnitude then .infinite negative
    else if magnitude < -400 then zero negative
    else if 0 ≤ exponent then round format negative (significand * Nat.pow 10 exponent.toNat) 1
    else round format negative significand (Nat.pow 10 (-exponent).toNat)

/-- The number that some decimal digits write. -/
def digitsValue (digits : List Char) : Nat :=
  digits.foldl (fun read c => read * 10 + (c.toNat - '0'.toNat)) 0

/-- Reads an exponent: an optional sign and at least one digit, up to the end. -/
def readExponent : List Char → Option Int
  | '+' :: digits => (magnitude digits).map Int.ofNat
  | '-' :: digits => (magnitude digits).map fun n => -Int.ofNat n
  | digits => (magnitude digits).map Int.ofNat
where
  /-- The number that at least one digit writes. -/
  magnitude (digits : List Char) : Option Nat :=
    if !digits.isEmpty && digits.all Text.isAsciiDigit then some (digitsValue digits) else none

/-- Reads digits with an optional point and an optional exponent. -/
def readDecimal (format : Format) (negative : Bool) (characters : List Char) : Option Binary :=
  let whole := characters.takeWhile Text.isAsciiDigit
  let afterWhole := characters.dropWhile Text.isAsciiDigit
  let (fraction, afterFraction) :=
    match afterWhole with
    | '.' :: rest => (rest.takeWhile Text.isAsciiDigit, rest.dropWhile Text.isAsciiDigit)
    | rest => ([], rest)
  if whole.isEmpty && fraction.isEmpty then none
  else
    let exponent :=
      match afterFraction with
      | [] => some 0
      | c :: rest => if c = 'e' || c = 'E' then readExponent rest else none
    exponent.map fun exponent =>
      ofDecimal format negative (digitsValue (whole ++ fraction)) (exponent - fraction.length)

/-- Reads a number without its sign; the words for infinity and not-a-number are read in any case.
-/
def readMagnitude (format : Format) (negative : Bool) (characters : List Char) : Option Binary :=
  let lower := characters.map Text.asciiLower
  if lower = "inf".toList || lower = "infinity".toList then some (.infinite negative)
  else if lower = "nan".toList then some .nan
  else readDecimal format negative characters

/-- The number of a format nearest to the one that a text writes. -/
def parse? (format : Format) (text : String) : Option Binary :=
  match text.toList with
  | '-' :: characters => readMagnitude format true characters
  | '+' :: characters => readMagnitude format false characters
  | characters => readMagnitude format false characters

/-- The product of two numbers, rounded. -/
def mul (format : Format) : Binary → Binary → Binary
  | .finite sign significand exponent, .finite sign' significand' exponent' =>
      convert format (.finite (sign != sign') (significand * significand') (exponent + exponent'))
  | .infinite sign, .finite sign' significand _ =>
      if significand = 0 then .nan else .infinite (sign != sign')
  | .finite sign significand _, .infinite sign' =>
      if significand = 0 then .nan else .infinite (sign != sign')
  | .infinite sign, .infinite sign' => .infinite (sign != sign')
  | _, _ => .nan

/-- The quotient of two numbers, rounded. -/
def div (format : Format) : Binary → Binary → Binary
  | .finite sign significand exponent, .finite sign' significand' exponent' =>
      if significand' = 0 then
        if significand = 0 then .nan else .infinite (sign != sign')
      else
        let shift := exponent - exponent'
        if 0 ≤ shift then
          round format (sign != sign') (significand * Nat.pow 2 shift.toNat) significand'
        else round format (sign != sign') significand (significand' * Nat.pow 2 (-shift).toNat)
  | .infinite sign, .finite sign' _ _ => .infinite (sign != sign')
  | .finite sign _ _, .infinite sign' => zero (sign != sign')
  | _, _ => .nan

/-- Equality of the values: not-a-number differs from itself, and the two zeros are equal. -/
def sameValue : Binary → Binary → Bool
  | .nan, _ => false
  | _, .nan => false
  | .finite _ 0 _, .finite _ 0 _ => true
  | left, right => left = right

def isZero : Binary → Bool
  | .finite _ significand _ => significand = 0
  | _ => false

end Binary

end IntentRouting
