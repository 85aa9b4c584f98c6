/-!
Contract: bytes as printable text. A printable ASCII character other than the
double quote and the backslash stands for itself; every other byte is a backslash
followed by two upper-case hexadecimal digits.

Owns:
- `escapeBytes`, the written form;
- `unescapeBytes`, its reader, which refuses a backslash without two digits.
-/

namespace TypedIR.Text

/-- A byte that is written as itself: graphic ASCII or a space, but neither a quote nor a
backslash. -/
def isPlainByte (byte : UInt8) : Bool :=
  0x20 ≤ byte.toNat && byte.toNat ≤ 0x7E && byte.toNat != 0x22 && byte.toNat != 0x5C

/-- The upper-case hexadecimal digit of a number below sixteen. -/
def hexDigit (digit : Nat) : Char :=
  if digit < 10 then Char.ofNat (48 + digit) else Char.ofNat (55 + digit)

def hexDigitValue? (character : Char) : Option Nat :=
  if '0' ≤ character ∧ character ≤ '9' then some (character.toNat - 48)
  else if 'A' ≤ character ∧ character ≤ 'F' then some (character.toNat - 55)
  else if 'a' ≤ character ∧ character ≤ 'f' then some (character.toNat - 87)
  else none

def escapeByte (byte : UInt8) : List Char :=
  if isPlainByte byte then [Char.ofNat byte.toNat]
  else ['\\', hexDigit (byte.toNat / 16), hexDigit (byte.toNat % 16)]

def escapeBytes (bytes : List UInt8) : List Char :=
  bytes.flatMap escapeByte

def unescapeBytes : List Char → Option (List UInt8)
  | [] => some []
  | '\\' :: high :: low :: rest => do
      let high ← hexDigitValue? high
      let low ← hexDigitValue? low
      let bytes ← unescapeBytes rest
      return UInt8.ofNat (high * 16 + low) :: bytes
  | character :: rest =>
      if character = '\\' then none
      else do
        let bytes ← unescapeBytes rest
        return UInt8.ofNat character.toNat :: bytes

end TypedIR.Text
