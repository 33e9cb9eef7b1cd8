import IntentRouting.Number.Binary

/-!
# Shortest decimals

The decimal digits by which a binary floating-point number is written: as few as possible among
those that read back to the number, and of these the ones nearest to it. The numbers that read back
to `m * 2 ^ q` form an interval around it that reaches half-way to both neighbours and holds its
ends exactly when `m` is even. If any point of a decimal grid lies in the interval, one of the two
grid points next to the number does, so it is enough to look at these two on grids that become finer
one digit at a time. Two layouts are made of the digits: one that never uses an exponent, and one
that does for numbers outside a range and marks whole numbers by a zero after the point.
-/

namespace IntentRouting.Binary

/-- Which of two decimals is taken that are equally near to a number. -/
inductive Tie where
  | up
  | toEven
deriving DecidableEq, Repr

/-- Decimal digits and the power of ten of the last of them. -/
structure Decimal where
  coefficient : Nat
  exponent : Int
deriving DecidableEq, Repr

/-- The bounds of the numbers that read back to `significand * 2 ^ exponent`, and the number itself,
as numerators over one denominator. -/
structure Interval where
  lower : Nat
  value : Nat
  upper : Nat
  denominator : Nat
  closed : Bool
deriving Repr

/-- The interval of a finite number that is not zero. At a power of two the lower neighbour is
nearer. -/
def interval (format : Format) (significand : Nat) (exponent : Int) : Interval :=
  let nearer := significand = Nat.pow 2 (format.precision - 1) && decide (format.lowestExponent < exponent)
  let scale : Nat := if 2 ≤ exponent then Nat.pow 2 (exponent - 2).toNat else 1
  let denominator : Nat := if 2 ≤ exponent then 1 else Nat.pow 2 (2 - exponent).toNat
  { lower := (4 * significand - if nearer then 1 else 2) * scale
    value := 4 * significand * scale
    upper := (4 * significand + 2) * scale
    denominator := denominator
    closed := significand % 2 = 0 }

def Interval.contains (interval : Interval) (decimal : Decimal) : Bool :=
  let (point, unit) :=
    if 0 ≤ decimal.exponent then
      (decimal.coefficient * Nat.pow 10 decimal.exponent.toNat * interval.denominator, 1)
    else (decimal.coefficient * interval.denominator, Nat.pow 10 (-decimal.exponent).toNat)
  if interval.closed then interval.lower * unit ≤ point && point ≤ interval.upper * unit
  else interval.lower * unit < point && point < interval.upper * unit

/-- The better of the two points next to the number on the grid of multiples of `10 ^ exponent`, if
one of them lies in the interval. -/
def Interval.onGrid? (interval : Interval) (tie : Tie) (exponent : Int) : Option Decimal :=
  let (numerator, denominator) :=
    if 0 ≤ exponent then (interval.value, interval.denominator * Nat.pow 10 exponent.toNat)
    else (interval.value * Nat.pow 10 (-exponent).toNat, interval.denominator)
  let below : Decimal := ⟨numerator / denominator, exponent⟩
  let above : Decimal := ⟨numerator / denominator + 1, exponent⟩
  let twice := 2 * (numerator % denominator)
  let takeBelow :=
    twice < denominator || (twice == denominator && tie == .toEven && below.coefficient % 2 == 0)
  match interval.contains below && below.coefficient != 0, interval.contains above with
  | true, true => some (if takeBelow then below else above)
  | true, false => some below
  | false, true => some above
  | false, false => none

/-- The first grid with a hit, from `exponent` downward, for at most `grids` grids. -/
def Interval.search (interval : Interval) (tie : Tie) (exponent : Int) : Nat → Option Decimal
  | 0 => none
  | grids + 1 =>
      match interval.onGrid? tie exponent with
      | some decimal => some decimal
      | none => interval.search tie (exponent - 1) grids

/-- Removes zeros from the end of a coefficient, at most `count` of them. -/
def Decimal.trim (decimal : Decimal) : Nat → Decimal
  | 0 => decimal
  | count + 1 =>
      if decimal.coefficient % 10 = 0 && decimal.coefficient != 0 then
        Decimal.trim ⟨decimal.coefficient / 10, decimal.exponent + 1⟩ count
      else decimal

/-- The shortest decimal that reads back to a finite number that is not zero. The search starts on a
grid coarser than the number, and twenty digits are more than either format needs. -/
def shortest (format : Format) (tie : Tie) (significand : Nat) (exponent : Int) : Decimal :=
  let interval := interval format significand exponent
  let magnitude : Int := (Nat.log2 significand : Int) + exponent
  let start : Int := magnitude * 30103 / 100000 + 2
  ((interval.search tie start 24).getD ⟨0, 0⟩).trim 24

/-- Digits with the point in its place and zeros where digits are missing. -/
def positional (decimal : Decimal) : List Char × List Char :=
  let digits := Nat.toDigits 10 decimal.coefficient
  if 0 ≤ decimal.exponent then (digits ++ List.replicate decimal.exponent.toNat '0', [])
  else
    let places := (-decimal.exponent).toNat
    if places < digits.length then
      (digits.take (digits.length - places), digits.drop (digits.length - places))
    else (['0'], List.replicate (places - digits.length) '0' ++ digits)

def signText (negative : Bool) : List Char := if negative then ['-'] else []

/-- A number written without an exponent; a whole number has no point, and a tie goes up. -/
def plainText (format : Format) : Binary → String
  | .nan => "NaN"
  | .infinite negative => if negative then "-inf" else "inf"
  | .finite negative significand exponent =>
      if significand = 0 then String.ofList (signText negative ++ ['0'])
      else
        let (whole, fraction) := positional (shortest format .up significand exponent)
        String.ofList (signText negative ++ whole ++
          if fraction.isEmpty then [] else '.' :: fraction)

/-- The decimal exponents, in scientific notation, for which a number of a format is written without
an exponent. -/
structure FixedRange where
  lowest : Int
  highest : Int
deriving Repr

/-- A number as it stands in a document: whole numbers end in `.0`, an exponent has its sign,
and a tie goes to the even digit. Not a number and the infinities have no such text. -/
def documentText? (format : Format) (range : FixedRange) : Binary → Option String
  | .nan => none
  | .infinite _ => none
  | .finite negative significand exponent =>
      if significand = 0 then some (String.ofList (signText negative ++ "0.0".toList))
      else
        let decimal := shortest format .toEven significand exponent
        let digits := Nat.toDigits 10 decimal.coefficient
        let scientific : Int := decimal.exponent + digits.length - 1
        let body :=
          if range.lowest ≤ scientific && scientific ≤ range.highest then
            let (whole, fraction) := positional decimal
            whole ++ '.' :: (if fraction.isEmpty then ['0'] else fraction)
          else
            digits.take 1 ++ (if digits.length = 1 then [] else '.' :: digits.drop 1) ++
              'e' :: (if 0 ≤ scientific then ['+'] else ['-']) ++ Nat.toDigits 10 scientific.natAbs
        some (String.ofList (signText negative ++ body))

end IntentRouting.Binary
