import IntentRouting.Malformed
import IntentRouting.Text.Split

/-!
# Percent escapes

Text inside a URI. Letters, digits and nine marks stand for themselves; every other character is
written as the bytes of its UTF-8 form, each as a percent sign and two upper-case hexadecimal
digits. Reading undoes every escape of two hexadecimal digits of either case and leaves a percent
sign that begins no escape as it is; the bytes have to be UTF-8.
-/

namespace IntentRouting.Uri

def marks : List Char := ['_', '-', '!', '.', '~', '\'', '(', ')', '*']

def isUnreserved (c : Char) : Bool := Text.isAsciiAlphanumeric c || marks.contains c

def hexDigit (n : Nat) : Char :=
  if n < 10 then Char.ofNat ('0'.toNat + n) else Char.ofNat ('A'.toNat + (n - 10))

def escapeByte (byte : UInt8) : List Char :=
  ['%', hexDigit (byte.toNat / 16), hexDigit (byte.toNat % 16)]

/-- One character, or the escapes of its bytes. -/
def encodeChar (c : Char) : List Char :=
  if isUnreserved c then [c] else (Text.Utf8.encodeChar c).flatMap escapeByte

/-- Characters with everything escaped that does not stand for itself. -/
def encodeChars (characters : List Char) : List Char := characters.flatMap encodeChar

/-- A text with everything escaped that does not stand for itself. -/
def encode (text : String) : String := Text.onChars encodeChars text

/-- The byte that two hexadecimal digits write. -/
def escapedByte? (high low : Char) : Option UInt8 := do
  let high ← Integer.digitValue? 16 high
  let low ← Integer.digitValue? 16 low
  some (UInt8.ofNat (high * 16 + low))

/-- The bytes that characters with escapes stand for. -/
def decodeBytes : List Char → List UInt8
  | '%' :: high :: low :: rest =>
      match escapedByte? high low with
      | some byte => byte :: decodeBytes rest
      | none => Text.Utf8.encodeChar '%' ++ decodeBytes (high :: low :: rest)
  | c :: rest => Text.Utf8.encodeChar c ++ decodeBytes rest
  | [] => []

/-- The text that characters with escapes stand for. -/
def decodeChars (characters : List Char) : Except Text.Utf8.Fault (List Char) :=
  Text.Utf8.decode (decodeBytes characters)

/-- The text that a text with escapes stands for. -/
def decode (text : String) : Except Malformed String :=
  match decodeChars text.toList with
  | .ok characters => .ok (String.ofList characters)
  | .error fault => .error (.escape text fault)

/-- The text that characters with escapes stand for, with U+FFFD in place of what is not UTF-8. -/
def decodeLossy (characters : List Char) : String :=
  String.ofList (Text.Utf8.decodeLossy (decodeBytes characters))

end IntentRouting.Uri
