/-!
Contract: which written numbers a float of 64 bits can hold.

Owns:
- rounding to 53 significant bits, the nearest number, and the even one of two
  that are as near;
- the decimal significand of a number, the digits that lead it as far as 64 bits
  hold them, with the power of ten that the other digits leave;
- `isFinite`: significand and power of ten are rounded by themselves, then
  multiplied and rounded again, and the result stays below all infinities.

Rounding three times may take a number beyond the largest float that one rounding
would leave below it. Signs play no part, and no negative power of ten leads
beyond the floats.
-/

namespace TypedIR.Magnitude

/-- The nearest number of 53 significant bits. -/
def nearest (number : Nat) : Nat :=
  if number.log2 < 53 then number
  else
    let unit := Nat.pow 2 (number.log2 - 52)
    let below := number / unit
    let rest := 2 * (number % unit)
    let above := unit < rest || (unit == rest && below % 2 == 1)
    (if above then below + 1 else below) * unit

/-- The least number that is as near to infinity as to a float. -/
def beyond : Nat := Nat.pow 2 1024 - Nat.pow 2 970

/-- The greatest power of ten that is near a float. -/
def maxPower : Int := 308

def isFinite (significand : Nat) (power : Int) : Bool :=
  if significand = 0 ∨ power ≤ 0 then true
  else if maxPower < power then false
  else decide (nearest significand * nearest (Nat.pow 10 power.toNat) < beyond)

/-- The number that further digits make of a number while 64 bits hold it, and the digits from
the first that they cannot hold. -/
def takeDigits (number : Nat) : List Char → Nat × List Char
  | [] => (number, [])
  | digit :: rest =>
      let next := number * 10 + (digit.toNat - 48)
      if next < UInt64.size then takeDigits next rest else (number, digit :: rest)

/-- The significand of the digits before and behind the point, and its power of ten. Digits
before the point that find no place raise the power, those behind it are lost. -/
def significandOf (whole fraction : List Char) : Nat × Int :=
  let (number, omitted) := takeDigits 0 whole
  let (number, lost) := takeDigits number fraction
  (number, omitted.length + lost.length - fraction.length)

/-- Whether digits around a point, times a power of ten, make a finite float. -/
def isFiniteDecimal (whole fraction : List Char) (exponent : Int) : Bool :=
  let (significand, power) := significandOf whole fraction
  isFinite significand (power + exponent)

example : nearest 9007199254740993 = 9007199254740992 := by decide
example : nearest 9007199254740995 = 9007199254740996 := by decide

end TypedIR.Magnitude
