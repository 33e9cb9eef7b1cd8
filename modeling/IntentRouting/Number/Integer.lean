/-!
# Whole numbers as text

A number is read from an optional sign and at least one digit, and has to lie in the range that its
field allows. The digits are read from the left, and the first of them that is no digit, or that
takes the number out of its range, decides which fault is reported. A minus sign is a sign only
where negative numbers are allowed; elsewhere it is a character that is no digit.
-/

namespace IntentRouting

/-- Why a text is not a whole number of some range. -/
inductive IntegerFault where
  | empty
  | invalidDigit
  | tooLarge
  | tooSmall
deriving DecidableEq, Repr

namespace IntegerFault

def message : IntegerFault → String
  | empty => "cannot parse integer from empty string"
  | invalidDigit => "invalid digit found in string"
  | tooLarge => "number too large to fit in target type"
  | tooSmall => "number too small to fit in target type"

end IntegerFault

namespace Integer

/-- A closed range of whole numbers. -/
structure Bounds where
  lowest : Int
  highest : Int
deriving DecidableEq, Repr

/-- The numbers that `bits` bits hold in two's complement. -/
def Bounds.signed (bits : Nat) : Bounds := ⟨-Int.ofNat (Nat.pow 2 (bits - 1)), Int.ofNat (Nat.pow 2 (bits - 1)) - 1⟩

/-- The numbers that `bits` bits hold without a sign. -/
def Bounds.unsigned (bits : Nat) : Bounds := ⟨0, Int.ofNat (Nat.pow 2 bits) - 1⟩

def Bounds.Contains (bounds : Bounds) (n : Int) : Prop := bounds.lowest ≤ n ∧ n ≤ bounds.highest

instance (bounds : Bounds) (n : Int) : Decidable (bounds.Contains n) :=
  inferInstanceAs (Decidable (_ ∧ _))

/-- The value of a digit in some base up to 36. -/
def digitValue? (base : Nat) (c : Char) : Option Nat :=
  let value :=
    if '0' ≤ c && c ≤ '9' then some (c.toNat - '0'.toNat)
    else if 'a' ≤ c && c ≤ 'z' then some (c.toNat - 'a'.toNat + 10)
    else if 'A' ≤ c && c ≤ 'Z' then some (c.toNat - 'A'.toNat + 10)
    else none
  value.filter (· < base)

/-- Reads digits after a number already read, which stays within `limit`. -/
def readDigits (base limit : Nat) (overflow : IntegerFault) (read : Nat) :
    List Char → Except IntegerFault Nat
  | [] => .ok read
  | c :: rest =>
      match digitValue? base c with
      | none => .error .invalidDigit
      | some digit =>
          let next := read * base + digit
          if next ≤ limit then readDigits base limit overflow next rest else .error overflow

def readMagnitude (base limit : Nat) (overflow : IntegerFault) :
    List Char → Except IntegerFault Nat
  | [] => .error .invalidDigit
  | digits => readDigits base limit overflow 0 digits

def read (base : Nat) (bounds : Bounds) : List Char → Except IntegerFault Int
  | [] => .error .empty
  | '+' :: digits => (readMagnitude base bounds.highest.toNat .tooLarge digits).map Int.ofNat
  | '-' :: digits =>
      if bounds.lowest < 0 then
        (readMagnitude base (-bounds.lowest).toNat .tooSmall digits).map fun n => -Int.ofNat n
      else .error .invalidDigit
  | digits => (readMagnitude base bounds.highest.toNat .tooLarge digits).map Int.ofNat

def parse (bounds : Bounds) (text : String) : Except IntegerFault Int := read 10 bounds text.toList

/-- The number that a text writes, if it lies in the range. -/
def parse? (bounds : Bounds) (text : String) : Option Int := (parse bounds text).toOption

/-- A number in decimal digits, after a minus sign if it is negative. -/
def digits (n : Int) : List Char :=
  if n < 0 then '-' :: Nat.toDigits 10 n.natAbs else Nat.toDigits 10 n.natAbs

def text (n : Int) : String := String.ofList (digits n)

end Integer

end IntentRouting
