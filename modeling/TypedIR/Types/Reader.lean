import TypedIR.Text.Blank
import TypedIR.Types.Tree

/-!
Contract: reading a written type from its text.

Owns:
- the reader of `T ::= void | i N | [ N x T ] | <{ F > | { F` with
  `F ::= } | T (, T)* }`, where blanks may stand before every token and at the end
  but inside none, and `N` is ASCII digits that denote a number of 32 bits;
- the reasons why it refuses a text.

Every token consumes a character, so the budget that `TypeTerm.read` takes from
the length of the text never runs out.
-/

namespace TypedIR

inductive TypeTermFault where
  | unknownType
  | number
  | cross
  | closingBracket
  | closingAngle
  | commaOrBrace
  | trailing
deriving DecidableEq, Repr

def TypeTermFault.reason : TypeTermFault → String
  | .unknownType => "unknown type"
  | .number => "expected a number"
  | .cross => "expected 'x' in array type"
  | .closingBracket => "expected ']'"
  | .closingAngle => "expected '>'"
  | .commaOrBrace => "expected ',' or '\x7d'"
  | .trailing => "trailing characters"

def TypeTermFault.message (text : String) (fault : TypeTermFault) : String :=
  "invalid type '" ++ text ++ "': " ++ fault.reason

namespace TypeTerm

/-- The rest behind a word that the characters start with. -/
def afterWord? : List Char → List Char → Option (List Char)
  | [], rest => some rest
  | expected :: word, character :: rest =>
      if expected = character then afterWord? word rest else none
  | _ :: _, [] => none

/-- The rest behind a token, blanks before it skipped. -/
def after? (token : List Char) (characters : List Char) : Option (List Char) :=
  afterWord? token (Text.dropBlanks characters)

def isDigit (character : Char) : Bool := '0' ≤ character && character ≤ '9'

/-- The digits of a number of 32 bits, blanks before it skipped, and the rest. -/
def readNumber (characters : List Char) : Except TypeTermFault (UInt32 × List Char) :=
  let rest := Text.dropBlanks characters
  let digits := rest.takeWhile isDigit
  let value := Nat.ofDigitChars 10 digits 0
  if digits.isEmpty ∨ UInt32.size ≤ value then .error .number
  else .ok (UInt32.ofNat value, rest.dropWhile isDigit)

mutual

def readType : Nat → List Char → Except TypeTermFault (TypeTerm × List Char)
  | 0, _ => .error .unknownType
  | budget + 1, characters =>
      match after? ['v', 'o', 'i', 'd'] characters with
      | some rest => .ok (.void, rest)
      | none =>
      match after? ['i'] characters with
      | some rest => do
          let (bits, rest) ← readNumber rest
          return (.integer bits, rest)
      | none =>
      match after? ['['] characters with
      | some rest => do
          let (length, rest) ← readNumber rest
          match after? ['x'] rest with
          | none => throw .cross
          | some rest =>
              let (element, rest) ← readType budget rest
              match after? [']'] rest with
              | none => throw .closingBracket
              | some rest => return (.array element length, rest)
      | none =>
      match after? ['<', '{'] characters with
      | some rest => do
          let (fields, rest) ← readFields budget rest
          match after? ['>'] rest with
          | none => throw .closingAngle
          | some rest => return (.struct fields true, rest)
      | none =>
      match after? ['{'] characters with
      | some rest => do
          let (fields, rest) ← readFields budget rest
          return (.struct fields false, rest)
      | none => throw .unknownType

/-- Fields behind an opening brace, through the closing one. -/
def readFields (budget : Nat) (characters : List Char) :
    Except TypeTermFault (List TypeTerm × List Char) :=
  match after? ['}'] characters with
  | some rest => .ok ([], rest)
  | none => readFieldList budget characters

/-- One field or more, through the closing brace. -/
def readFieldList : Nat → List Char → Except TypeTermFault (List TypeTerm × List Char)
  | 0, _ => .error .unknownType
  | budget + 1, characters => do
      let (field, rest) ← readType budget characters
      match after? ['}'] rest with
      | some rest => return ([field], rest)
      | none =>
          match after? [','] rest with
          | none => throw .commaOrBrace
          | some rest =>
              let (fields, rest) ← readFieldList budget rest
              return (field :: fields, rest)

end

def read (text : String) : Except TypeTermFault TypeTerm := do
  let characters := text.toList
  let (term, rest) ← readType (2 * characters.length + 2) characters
  if (Text.dropBlanks rest).isEmpty then return term else throw .trailing

end TypeTerm

end TypedIR
