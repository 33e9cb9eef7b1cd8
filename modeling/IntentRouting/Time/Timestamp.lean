import IntentRouting.Number.Binary
import IntentRouting.Text.Blank

/-!
# Timestamps

A moment is the second that it lies in, counted from the beginning of 1970 in universal time, and
the nanoseconds after the beginning of that second. A leap second belongs to the second before it
and has a billion nanoseconds or more. Moments are written as RFC 3339 says, in universal time, with
as many places after the point as are needed out of none, three, six and nine. Reading is lenient:
blanks may stand between the parts, numbers may have fewer digits, and any offset of whole minutes
is taken off.
-/

namespace IntentRouting

/-- A moment. -/
structure Timestamp where
  seconds : Int
  nanoseconds : Nat
deriving DecidableEq, Repr

namespace Timestamp

def compare (left right : Timestamp) : Ordering :=
  (Ord.compare left.seconds right.seconds).then (Ord.compare left.nanoseconds right.nanoseconds)

instance : Ord Timestamp := ⟨compare⟩

theorem compare_eq_compareLex :
    compare = compareLex (compareOn seconds) (compareOn nanoseconds) := rfl

instance : Std.TransCmp compare := by
  rw [compare_eq_compareLex]
  infer_instance

instance : Std.LawfulEqCmp compare where
  eq_of_compare := by
    rintro ⟨seconds, nanoseconds⟩ ⟨otherSeconds, otherNanoseconds⟩ same
    rcases Ordering.then_eq_eq.1 same with ⟨sameSeconds, sameNanoseconds⟩
    cases Std.LawfulEqCmp.eq_of_compare sameSeconds
    cases Std.LawfulEqCmp.eq_of_compare sameNanoseconds
    rfl

/-- The number of days from the beginning of 1970 to a day of the calendar. Years are counted from
March, so that a leap day is the last day of its year. -/
def daysOfDate (year : Int) (month day : Nat) : Int :=
  let year := if month ≤ 2 then year - 1 else year
  let era := Int.fdiv year 400
  let yearOfEra := year - era * 400
  let monthFromMarch : Nat := (month + 9) % 12
  let dayOfYear : Int := ((153 * monthFromMarch + 2) / 5 + day - 1 : Nat)
  let dayOfEra := yearOfEra * 365 + yearOfEra / 4 - yearOfEra / 100 + dayOfYear
  era * 146097 + dayOfEra - 719468

/-- The year, month and day of a number of days from the beginning of 1970. -/
def dateOfDays (days : Int) : Int × Nat × Nat :=
  let days := days + 719468
  let era := Int.fdiv days 146097
  let dayOfEra := (days - era * 146097).toNat
  let yearOfEra := (dayOfEra - dayOfEra / 1460 + dayOfEra / 36524 - dayOfEra / 146096) / 365
  let dayOfYear := dayOfEra - (365 * yearOfEra + yearOfEra / 4 - yearOfEra / 100)
  let monthFromMarch := (5 * dayOfYear + 2) / 153
  let day := dayOfYear - (153 * monthFromMarch + 2) / 5 + 1
  let month := if monthFromMarch < 10 then monthFromMarch + 3 else monthFromMarch - 9
  let year : Int := yearOfEra + era * 400
  (if month ≤ 2 then year + 1 else year, month, day)

def isLeapYear (year : Int) : Bool := year % 4 = 0 && (year % 100 != 0 || year % 400 = 0)

def daysInMonth (year : Int) (month : Nat) : Nat :=
  if month = 2 then if isLeapYear year then 29 else 28
  else if month = 4 || month = 6 || month = 9 || month = 11 then 30 else 31

/-- The years that a date can have, as it is written and in universal time. -/
def isYear (year : Int) : Bool := -262143 ≤ year && year ≤ 262142

def secondsPerDay : Int := 86400

def nanosecondsPerSecond : Nat := 1000000000

/-! ## Writing -/

/-- A number with zeros in front up to a number of digits. -/
def padded (width n : Nat) : List Char :=
  let digits := Nat.toDigits 10 n
  List.replicate (width - digits.length) '0' ++ digits

/-- A year of four digits, or with a sign if it has more. -/
def yearChars (year : Int) : List Char :=
  if 0 ≤ year && year ≤ 9999 then padded 4 year.toNat
  else (if year < 0 then '-' else '+') :: padded 4 year.natAbs

/-- The places after the point: none, three, six or nine. -/
def fractionChars (nanoseconds : Nat) : List Char :=
  if nanoseconds = 0 then []
  else if nanoseconds % 1000000 = 0 then '.' :: padded 3 (nanoseconds / 1000000)
  else if nanoseconds % 1000 = 0 then '.' :: padded 6 (nanoseconds / 1000)
  else '.' :: padded 9 nanoseconds

def year (moment : Timestamp) : Int := (dateOfDays (Int.fdiv moment.seconds secondsPerDay)).1

/-- A moment with a text for universal time at its end. -/
def textWith (offset : String) (moment : Timestamp) : String :=
  let days := Int.fdiv moment.seconds secondsPerDay
  let second := (moment.seconds - days * secondsPerDay).toNat
  let (year, month, day) := dateOfDays days
  let leap := if moment.nanoseconds < nanosecondsPerSecond then 0 else 1
  String.ofList (yearChars year ++ '-' :: padded 2 month ++ '-' :: padded 2 day ++
    'T' :: padded 2 (second / 3600) ++ ':' :: padded 2 (second / 60 % 60) ++
    ':' :: padded 2 (second % 60 + leap) ++
    fractionChars (moment.nanoseconds % nanosecondsPerSecond)) ++ offset

def text (moment : Timestamp) : String := moment.textWith "Z"

def offsetText (moment : Timestamp) : String := moment.textWith "+00:00"

/-! ## Reading -/

/-- Reads at least one digit and at most some number of digits, blanks before them included. -/
def number? (width : Nat) (characters : List Char) : Option (Nat × List Char) :=
  let characters := Text.trimStart characters
  let digits := (characters.takeWhile Text.isAsciiDigit).take width
  if digits.isEmpty then none
  else some (Binary.digitsValue digits, characters.drop digits.length)

/-- Reads a year of at most four digits, or of any number of digits after a sign. -/
def year? (characters : List Char) : Option (Int × List Char) :=
  match Text.trimStart characters with
  | '-' :: rest =>
      match rest with
      | c :: _ =>
          if Text.isAsciiDigit c then
            (number? rest.length rest).map fun (n, rest) => (-(n : Int), rest)
          else none
      | [] => none
  | '+' :: rest =>
      match rest with
      | c :: _ =>
          if Text.isAsciiDigit c then
            (number? rest.length rest).map fun (n, rest) => ((n : Int), rest)
          else none
      | [] => none
  | rest => (number? 4 rest).map fun (n, rest) => ((n : Int), rest)

/-- Reads a mark, blanks before it included. -/
def mark? (mark : Char) (characters : List Char) : Option (List Char) :=
  Text.strip? [mark] (Text.trimStart characters)

/-- Reads the places after a point: nine of them count, and there has to be at least one. -/
def fraction? : List Char → Option (Nat × List Char)
  | '.' :: rest =>
      let digits := rest.takeWhile Text.isAsciiDigit
      if digits.isEmpty then none
      else
        let counted := digits.take 9
        some (Binary.digitsValue counted * Nat.pow 10 (9 - counted.length),
          rest.dropWhile Text.isAsciiDigit)
  | characters => some (0, characters)

/-- Reads two digits without blanks before them. -/
def twoDigits? : List Char → Option (Nat × List Char)
  | a :: b :: rest =>
      if Text.isAsciiDigit a && Text.isAsciiDigit b then some (Binary.digitsValue [a, b], rest)
      else none
  | _ => none

/-- Reads the hours and minutes of an offset, as seconds. -/
def offsetSize? (characters : List Char) : Option (Int × List Char) := do
  let (hours, rest) ← twoDigits? characters
  let (minutes, rest) ← twoDigits? (rest.dropWhile fun c => c = ':' || Text.isBlank c)
  if minutes < 60 then some ((hours * 3600 + minutes * 60 : Nat), rest) else none

/-- Reads the offset from universal time, in seconds. -/
def offset? (characters : List Char) : Option (Int × List Char) :=
  match Text.strip? "utc".toList ((characters.take 3).map Text.asciiLower) with
  | some _ => some (0, characters.drop 3)
  | none =>
      match characters with
      | c :: rest =>
          if c = 'Z' || c = 'z' then some (0, rest)
          else if c = '+' then offsetSize? rest
          else if c = '-' || c = Char.ofNat 0x2212 then
            (offsetSize? rest).map fun (size, rest) => (-size, rest)
          else none
      | [] => none

/-- Reads the letter or the blank between the date and the time. -/
def separator? : List Char → Option (List Char)
  | c :: rest => if c = 'T' || c = 't' || c = ' ' then some rest else none
  | [] => none

def parse? (text : String) : Option Timestamp := do
  let (year, rest) ← year? text.toList
  let (month, rest) ← number? 2 (← mark? '-' rest)
  let (day, rest) ← number? 2 (← mark? '-' rest)
  let (hour, rest) ← number? 2 (← separator? rest)
  let (minute, rest) ← number? 2 (← mark? ':' rest)
  let (second, rest) ← number? 2 (← mark? ':' rest)
  let (nanoseconds, rest) ← fraction? rest
  let (offset, rest) ← offset? (Text.trimStart rest)
  if !(Text.trimStart rest).isEmpty || !isYear year || month = 0 || 12 < month || day = 0 ||
      daysInMonth year month < day || 23 < hour || 59 < minute || 60 < second ||
      secondsPerDay ≤ offset.natAbs then none
  else
    let leap := second = 60
    let second := if leap then 59 else second
    let moment : Timestamp := {
      seconds := daysOfDate year month day * secondsPerDay +
        (hour * 3600 + minute * 60 + second : Nat) - offset
      nanoseconds := if leap then nanoseconds + nanosecondsPerSecond else nanoseconds }
    if isYear moment.year then some moment else none

end Timestamp

end IntentRouting
