import IntentRouting.Json.Basic
import IntentRouting.Number.Shortest

/-!
# Number literals of a document

What a literal denotes to a field that reads it. A literal without point and exponent is a whole
number as long as it fits into 64 bits, signed if it is negative, and minus zero is not whole.
Everything else is a real number of double precision, read in two roundings: as many leading digits
as fit into 64 bits are rounded to a number, which is then multiplied with or divided by a power of
ten that is rounded as well. A literal too large for double precision denotes nothing.
-/

namespace IntentRouting.Json

/-- What the literal of a number denotes. -/
inductive Numeral where
  | whole (n : Int)
  | real (value : Binary)
deriving DecidableEq, Repr

namespace Numeral

def wordLimit : Nat := Nat.pow 2 64 - 1

/-- Takes digits into a number as long as it fits into 64 bits, and says what is left of them. -/
def takeDigits (read : Nat) : List Char → Nat × List Char
  | [] => (read, [])
  | c :: rest =>
      let next := read * 10 + (c.toNat - '0'.toNat)
      if wordLimit < next then (read, c :: rest) else takeDigits next rest

def powerOfTen (exponent : Nat) : Binary := Binary.ofDecimal .double false 1 exponent

/-- The greatest power of ten of double precision. -/
def greatestPower : Nat := 308

/-- Multiplies by a power of ten, in steps where the power itself is out of range. -/
def scale (value : Binary) (exponent : Int) : Nat → Option Binary
  | 0 => some value
  | steps + 1 =>
      if exponent.natAbs ≤ greatestPower then
        if 0 ≤ exponent then
          match Binary.mul .double value (powerOfTen exponent.toNat) with
          | .infinite _ => none
          | product => some product
        else some (Binary.div .double value (powerOfTen (-exponent).toNat))
      else if value.isZero then some value
      else if 0 ≤ exponent then none
      else scale (Binary.div .double value (powerOfTen greatestPower)) (exponent + 308) steps

def signed (negative : Bool) : Binary → Binary
  | .finite _ significand exponent => .finite negative significand exponent
  | .infinite _ => .infinite negative
  | .nan => .nan

/-- The real number of some leading digits and a power of ten. -/
def realOfParts (negative : Bool) (significand : Nat) (exponent : Int) : Option Binary :=
  (scale (Binary.ofInt .double significand) exponent 4).map (signed negative)

/-- The digits of an exponent after its sign, and whether it is negative. -/
def exponentDigits : List Char → Bool × List Char
  | '-' :: digits => (true, digits)
  | '+' :: digits => (false, digits)
  | digits => (false, digits)

/-- What a literal without its sign denotes. Each part is optional but for the digits at the front.
-/
def ofMagnitude (negative : Bool) (characters : List Char) : Option Numeral :=
  let whole := characters.takeWhile Text.isAsciiDigit
  let afterWhole := characters.dropWhile Text.isAsciiDigit
  let (significand, dropped) := takeDigits 0 whole
  if dropped.isEmpty && afterWhole.isEmpty then
    if !negative then some (.whole significand)
    else if significand = 0 || Nat.pow 2 63 < significand then
      some (.real (signed true (Binary.ofInt .double significand)))
    else some (.whole (-significand))
  else
    let (fraction, afterFraction) :=
      match afterWhole with
      | '.' :: rest => (rest.takeWhile Text.isAsciiDigit, rest.dropWhile Text.isAsciiDigit)
      | rest => ([], rest)
    let (significand, left) := takeDigits significand fraction
    let shift : Int := (dropped.length : Int) - (fraction.length - left.length : Nat)
    match afterFraction with
    | [] => (realOfParts negative significand shift).map .real
    | _ :: rest =>
        let (down, digits) := exponentDigits rest
        let exponent := Binary.digitsValue digits
        if Nat.pow 2 31 - 1 < exponent then
          if significand != 0 && !down then none else some (.real (Binary.zero negative))
        else
          let exponent : Int := if down then shift - exponent else shift + exponent
          (realOfParts negative significand exponent).map .real

def ofLiteral? (literal : String) : Option Numeral :=
  match literal.toList with
  | '-' :: rest => ofMagnitude true rest
  | rest => ofMagnitude false rest

end Numeral

def int? (bounds : Integer.Bounds) : Json → Option Int
  | .number literal =>
      match Numeral.ofLiteral? literal with
      | some (.whole n) => if bounds.Contains n then some n else none
      | _ => none
  | _ => none

/-- A number in some format; a whole number is rounded to it. -/
def real? (format : Binary.Format) : Json → Option Binary
  | .number literal =>
      match Numeral.ofLiteral? literal with
      | some (.whole n) => some (Binary.ofInt format n)
      | some (.real value) => some (value.convert format)
      | none => none
  | _ => none

/-- The exponents for which a number of double precision has no exponent part. -/
def doubleRange : Binary.FixedRange := ⟨-5, 15⟩

/-- The exponents for which a number of single precision has no exponent part. -/
def singleRange : Binary.FixedRange := ⟨-6, 12⟩

/-- A number of double precision; null if it is not finite. -/
def ofDouble (value : Binary) : Json := ofOption .number (value.documentText? .double doubleRange)

/-- A number of single precision; null if it is not finite. -/
def ofSingle (value : Binary) : Json := ofOption .number (value.documentText? .single singleRange)

end IntentRouting.Json
