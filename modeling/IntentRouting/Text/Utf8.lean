/-!
# UTF-8

Characters as bytes and back. Reading follows the table of well-formed sequences: after a first byte
only certain second bytes are allowed, so overlong forms, surrogates and values above U+10FFFF are
refused at the byte where they show. A fault is located by the number of bytes read before it and by
the length of the longest well-formed beginning of a sequence found there; a sequence that ends with
the input is incomplete instead. Strict reading stops at the first fault, lenient reading writes
U+FFFD for each.
-/

namespace IntentRouting.Text.Utf8

def encodeChar (c : Char) : List UInt8 :=
  let n := c.toNat
  if n < 0x80 then [.ofNat n]
  else if n < 0x800 then [.ofNat (0xc0 + n / 64), .ofNat (0x80 + n % 64)]
  else if n < 0x10000 then
    [.ofNat (0xe0 + n / 4096), .ofNat (0x80 + n / 64 % 64), .ofNat (0x80 + n % 64)]
  else
    [.ofNat (0xf0 + n / 262144), .ofNat (0x80 + n / 4096 % 64), .ofNat (0x80 + n / 64 % 64),
      .ofNat (0x80 + n % 64)]

def encode (characters : List Char) : List UInt8 := characters.flatMap encodeChar

/-- What stands at the front of some bytes. -/
inductive Front where
  | character (c : Char) (rest : List UInt8)
  /-- The longest beginning of a well-formed sequence has `size` bytes, and another byte follows. -/
  | invalid (size : Nat) (rest : List UInt8)
  /-- The input ends inside a sequence that is well-formed so far. -/
  | incomplete
deriving DecidableEq, Repr

/-- A byte of the form 10xxxxxx. -/
def isContinuation (byte : UInt8) : Bool := 0x80 ≤ byte && byte ≤ 0xbf

/-- The six bits that a continuation byte carries. -/
def payload (byte : UInt8) : Nat := byte.toNat % 64

/-- The second bytes allowed after a first byte of a sequence of three or four bytes. -/
def isSecondByte (first second : UInt8) : Bool :=
  if first = 0xe0 then 0xa0 ≤ second && second ≤ 0xbf
  else if first = 0xed then 0x80 ≤ second && second ≤ 0x9f
  else if first = 0xf0 then 0x90 ≤ second && second ≤ 0xbf
  else if first = 0xf4 then 0x80 ≤ second && second ≤ 0x8f
  else isContinuation second

/-- Reads the sequence that begins with a given byte. -/
def front (first : UInt8) (rest : List UInt8) : Front :=
  if first < 0x80 then .character (Char.ofNat first.toNat) rest
  else if 0xc2 ≤ first && first ≤ 0xdf then
    match rest with
    | [] => .incomplete
    | second :: rest' =>
        if isContinuation second then
          .character (Char.ofNat (first.toNat % 32 * 64 + payload second)) rest'
        else .invalid 1 rest
  else if 0xe0 ≤ first && first ≤ 0xef then
    match rest with
    | [] => .incomplete
    | [second] => if isSecondByte first second then .incomplete else .invalid 1 rest
    | second :: third :: rest' =>
        if !isSecondByte first second then .invalid 1 rest
        else if isContinuation third then
          .character (Char.ofNat (first.toNat % 16 * 4096 + payload second * 64 + payload third)) rest'
        else .invalid 2 (third :: rest')
  else if 0xf0 ≤ first && first ≤ 0xf4 then
    match rest with
    | [] => .incomplete
    | [second] => if isSecondByte first second then .incomplete else .invalid 1 rest
    | [second, third] =>
        if !isSecondByte first second then .invalid 1 rest
        else if isContinuation third then .incomplete else .invalid 2 [third]
    | second :: third :: fourth :: rest' =>
        if !isSecondByte first second then .invalid 1 rest
        else if !isContinuation third then .invalid 2 (third :: fourth :: rest')
        else if isContinuation fourth then
          .character (Char.ofNat (first.toNat % 8 * 262144 + payload second * 4096 +
            payload third * 64 + payload fourth)) rest'
        else .invalid 3 (fourth :: rest')
  else .invalid 1 rest

theorem length_le_of_front_character {first : UInt8} {rest rest' : List UInt8} {c : Char}
    (h : front first rest = .character c rest') : rest'.length ≤ rest.length := by
  unfold front at h
  grind

theorem length_le_of_front_invalid {first : UInt8} {rest rest' : List UInt8} {size : Nat}
    (h : front first rest = .invalid size rest') : rest'.length ≤ rest.length := by
  unfold front at h
  grind

/-- Why some bytes are not UTF-8. -/
inductive Fault where
  | invalid (size index : Nat)
  | incomplete (index : Nat)
deriving DecidableEq, Repr

def Fault.message : Fault → String
  | .invalid size index => s!"invalid utf-8 sequence of {size} bytes from index {index}"
  | .incomplete index => s!"incomplete utf-8 byte sequence from index {index}"

/-- Reads bytes strictly; `index` counts the bytes read before. -/
def decodeFrom (index : Nat) (bytes : List UInt8) : Except Fault (List Char) :=
  match bytes with
  | [] => .ok []
  | first :: rest =>
      match h : front first rest with
      | .character c rest' =>
          have : rest'.length ≤ rest.length := length_le_of_front_character h
          match decodeFrom (index + c.utf8Size) rest' with
          | .ok characters => .ok (c :: characters)
          | .error fault => .error fault
      | .invalid size _ => .error (.invalid size index)
      | .incomplete => .error (.incomplete index)
termination_by bytes.length
decreasing_by simp; omega

/-- The characters of some bytes, or the first fault in them. -/
def decode (bytes : List UInt8) : Except Fault (List Char) := decodeFrom 0 bytes

/-- The characters of some bytes, with U+FFFD for each fault. -/
def decodeLossy (bytes : List UInt8) : List Char :=
  match bytes with
  | [] => []
  | first :: rest =>
      match h : front first rest with
      | .character c rest' =>
          have : rest'.length ≤ rest.length := length_le_of_front_character h
          c :: decodeLossy rest'
      | .invalid _ rest' =>
          have : rest'.length ≤ rest.length := length_le_of_front_invalid h
          Char.ofNat 0xfffd :: decodeLossy rest'
      | .incomplete => [Char.ofNat 0xfffd]
termination_by bytes.length
decreasing_by all_goals simp; omega

end IntentRouting.Text.Utf8
