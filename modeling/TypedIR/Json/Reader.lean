import TypedIR.Json.Basic
import TypedIR.Json.Magnitude

/-!
Contract: the reader of JSON texts.

Owns:
- the strict grammar: no comments, no trailing commas, no leading zeros, no raw
  control characters in strings, blanks only where the grammar has them;
- escapes, with surrogate pairs joined and unpaired surrogates kept apart;
- the split of numbers into 64-bit integers and all others.

The reader of values recurses on a budget, which `Json.read?` takes from the
length of the text; every call consumes a character, so it never runs out.
-/

namespace TypedIR

namespace Json

def isSpace (character : Char) : Bool :=
  character == ' ' || character == '\n' || character == '\t' || character == '\r'

def skipSpace (characters : List Char) : List Char := characters.dropWhile isSpace

/-- The rest after the expected word, if the text starts with it. -/
def expect? : List Char → List Char → Option (List Char)
  | [], rest => some rest
  | expected :: word, character :: rest =>
      if expected = character then expect? word rest else none
  | _ :: _, [] => none

/-! ### Strings -/

/-- A piece of a string: a character, or a surrogate named by an escape. -/
inductive StringUnit where
  | character (character : Char)
  | surrogate (code : Nat)
deriving DecidableEq, Repr

def hexValue? (character : Char) : Option Nat :=
  if '0' ≤ character ∧ character ≤ '9' then some (character.toNat - 48)
  else if 'a' ≤ character ∧ character ≤ 'f' then some (character.toNat - 87)
  else if 'A' ≤ character ∧ character ≤ 'F' then some (character.toNat - 55)
  else none

def unitOfCode (code : Nat) : StringUnit :=
  if 0xD800 ≤ code ∧ code ≤ 0xDFFF then .surrogate code else .character (Char.ofNat code)

/-- Joins each high surrogate with the low one right after it. -/
def joinUnits : List StringUnit → Option (List Char)
  | [] => some []
  | .character character :: rest => (joinUnits rest).map (character :: ·)
  | .surrogate high :: .surrogate low :: rest =>
      if high < 0xDC00 ∧ 0xDC00 ≤ low then
        (joinUnits rest).map (Char.ofNat (0x10000 + (high - 0xD800) * 0x400 + (low - 0xDC00)) :: ·)
      else none
  | .surrogate _ :: _ => none

def escapedCharacter? : Char → Option Char
  | '"' => some '"'
  | '\\' => some '\\'
  | '/' => some '/'
  | 'b' => some '\x08'
  | 'f' => some '\x0C'
  | 'n' => some '\n'
  | 'r' => some '\r'
  | 't' => some '\t'
  | _ => none

/-- The pieces of a string after its opening quote, and the rest after its closing one. -/
def readUnits : List Char → Option (List StringUnit × List Char)
  | [] => none
  | '"' :: rest => some ([], rest)
  | '\\' :: 'u' :: first :: second :: third :: fourth :: rest => do
      let first ← hexValue? first
      let second ← hexValue? second
      let third ← hexValue? third
      let fourth ← hexValue? fourth
      let (units, rest) ← readUnits rest
      return (unitOfCode (((first * 16 + second) * 16 + third) * 16 + fourth) :: units, rest)
  | '\\' :: escape :: rest => do
      let character ← escapedCharacter? escape
      let (units, rest) ← readUnits rest
      return (.character character :: units, rest)
  | character :: rest =>
      if character.toNat < 0x20 ∨ character = '\\' then none
      else do
        let (units, rest) ← readUnits rest
        return (.character character :: units, rest)

def readText (characters : List Char) : Option (JsonText × List Char) := do
  let (units, rest) ← readUnits characters
  return ((joinUnits units).map String.ofList, rest)

/-! ### Numbers -/

def isDecimalDigit (character : Char) : Bool := '0' ≤ character && character ≤ '9'

def numeral (digits : List Char) : Nat := Nat.ofDigitChars 10 digits 0

/-- The digits of a fraction, and the rest; no digits when there is no point. -/
def readFraction : List Char → Option (List Char × List Char)
  | '.' :: rest =>
      let digits := rest.takeWhile isDecimalDigit
      if digits.isEmpty then none else some (digits, rest.dropWhile isDecimalDigit)
  | rest => some ([], rest)

def readExponentDigits (sign : Int) (characters : List Char) : Option (Option Int × List Char) :=
  let digits := characters.takeWhile isDecimalDigit
  if digits.isEmpty then none
  else some (some (sign * numeral digits), characters.dropWhile isDecimalDigit)

/-- The exponent, if the text has one, and the rest. -/
def readExponent : List Char → Option (Option Int × List Char)
  | 'e' :: '+' :: rest | 'E' :: '+' :: rest => readExponentDigits 1 rest
  | 'e' :: '-' :: rest | 'E' :: '-' :: rest => readExponentDigits (-1) rest
  | 'e' :: rest | 'E' :: rest => readExponentDigits 1 rest
  | rest => some (none, rest)

/-- An integer in the range of 64 bits stays one, but `-0` is a float. -/
def classify (negative : Bool) (whole fraction : List Char) (exponent : Option Int) :
    JsonNumber :=
  let digits := numeral whole
  let finite := Magnitude.isFiniteDecimal whole fraction (exponent.getD 0)
  if !fraction.isEmpty || exponent.isSome then .real finite
  else if negative then
    if digits = 0 ∨ Int64.minValue.toInt.natAbs < digits then .real finite else .integer (-digits)
  else if UInt64.size ≤ digits then .real finite else .integer digits

/-- A number after its sign, and the rest. -/
def readNumber (negative : Bool) (characters : List Char) : Option (JsonNumber × List Char) := do
  let whole := characters.takeWhile isDecimalDigit
  if whole.isEmpty ∨ (whole.head? = some '0' ∧ whole.length ≠ 1) then none
  else
    let (fraction, rest) ← readFraction (characters.dropWhile isDecimalDigit)
    let (exponent, rest) ← readExponent rest
    return (classify negative whole fraction exponent, rest)

/-! ### Values -/

mutual

def readValue : Nat → List Char → Option (Json × List Char)
  | 0, _ => none
  | budget + 1, characters =>
      match skipSpace characters with
      | 'n' :: rest => (expect? ['u', 'l', 'l'] rest).map (.null, ·)
      | 't' :: rest => (expect? ['r', 'u', 'e'] rest).map (.bool true, ·)
      | 'f' :: rest => (expect? ['a', 'l', 's', 'e'] rest).map (.bool false, ·)
      | '"' :: rest => (readText rest).map fun (value, rest) => (.string value, rest)
      | '-' :: rest => (readNumber true rest).map fun (value, rest) => (.number value, rest)
      | '[' :: rest =>
          match skipSpace rest with
          | ']' :: rest => some (.array [], rest)
          | rest => (readItems budget rest).map fun (items, rest) => (.array items, rest)
      | '{' :: rest =>
          match skipSpace rest with
          | '}' :: rest => some (.object [], rest)
          | rest => (readFields budget rest).map fun (fields, rest) => (.object fields, rest)
      | rest => (readNumber false rest).map fun (value, rest) => (.number value, rest)

/-- The items of a non-empty array, through its closing bracket. -/
def readItems : Nat → List Char → Option (List Json × List Char)
  | 0, _ => none
  | budget + 1, characters => do
      let (item, rest) ← readValue budget characters
      match skipSpace rest with
      | ']' :: rest => return ([item], rest)
      | ',' :: rest =>
          let (items, rest) ← readItems budget rest
          return (item :: items, rest)
      | _ => none

/-- The fields of a non-empty object, through its closing brace. -/
def readFields : Nat → List Char → Option (List (JsonText × Json) × List Char)
  | 0, _ => none
  | budget + 1, characters =>
      match skipSpace characters with
      | '"' :: rest => do
          let (name, rest) ← readText rest
          match skipSpace rest with
          | ':' :: rest =>
              let (value, rest) ← readValue budget rest
              match skipSpace rest with
              | '}' :: rest => return ([(name, value)], rest)
              | ',' :: rest =>
                  let (fields, rest) ← readFields budget rest
                  return ((name, value) :: fields, rest)
              | _ => none
          | _ => none
      | _ => none

end

/-- The document that a whole text writes, blanks around it allowed. -/
def read? (text : String) : Option Json := do
  let characters := text.toList
  let (json, rest) ← readValue (2 * characters.length + 2) characters
  if (skipSpace rest).isEmpty then some json else none

end Json

end TypedIR
