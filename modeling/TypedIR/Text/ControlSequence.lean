/-!
Contract: the plain text of a text that may hold control sequences for a terminal.

Owns:
- the sequences that an escape character opens, as the states of a scan: escape
  sequences, control sequences, device control strings with their parameters,
  other strings, and operating system commands;
- `plain`, the text without sequences, without control characters other than
  white space, and without the delete character.

White space inside an escape or control sequence stays, and so does what follows
it; the next control character takes the sequence up again. Strings hide white
space too. Outside of ASCII a character is text, but inside a string the byte
`0x9C` of its encoding is the end of the string.
-/

namespace TypedIR.Text

/-- What a scan is inside of. -/
inductive Sequence where
  | none
  /-- Behind an escape character. -/
  | escape
  /-- Behind an escape character and intermediate characters. -/
  | escapeIntermediate
  | control
  /-- At the head of a device control string. -/
  | deviceEntry
  | deviceParameters
  | deviceIntermediates
  /-- In the body of a device control string, or in a string without a head. -/
  | string
  /-- In an operating system command. -/
  | command
deriving DecidableEq, Repr

/-- The byte that ends a string. -/
def stringEnd : UInt8 := 0x9C

def isBetween (low high : Nat) (character : Char) : Bool :=
  low ≤ character.toNat && character.toNat ≤ high

namespace Sequence

/-- What an escape character and the next character open. -/
def opened (character : Char) : Sequence :=
  if isBetween 0x20 0x2F character then .escapeIntermediate
  else if character = '[' then .control
  else if character = ']' then .command
  else if character = 'P' then .deviceEntry
  else if character = 'X' ∨ character = '^' ∨ character = '_' then .string
  else if isBetween 0x30 0x7E character then .none
  else .escape

/-- What the scan is inside of after a hidden character that neither starts nor cancels a
sequence. -/
def after (character : Char) : Sequence → Sequence
  | .none => .none
  | .escape => opened character
  | .escapeIntermediate => if isBetween 0x30 0x7E character then .none else .escapeIntermediate
  | .control => if isBetween 0x40 0x7E character then .none else .control
  | .deviceEntry =>
      if isBetween 0x20 0x2F character then .deviceIntermediates
      else if isBetween 0x30 0x3F character then .deviceParameters
      else if isBetween 0x40 0x7E character then .string
      else .deviceEntry
  | .deviceParameters =>
      if isBetween 0x20 0x2F character then .deviceIntermediates
      else if isBetween 0x3C 0x7E character then .string
      else .deviceParameters
  | .deviceIntermediates =>
      if isBetween 0x30 0x7E character then .string else .deviceIntermediates
  | .string => if (String.utf8EncodeChar character).contains stringEnd then .none else .string
  | .command => if character = '\x07' then .none else .command

/-- White space is shown although the sequence is open. -/
def showsSpace : Sequence → Bool
  | .none | .escape | .escapeIntermediate | .control => true
  | .deviceEntry | .deviceParameters | .deviceIntermediates | .string | .command => false

end Sequence

/-- White space among the control characters of ASCII. -/
def isControlSpace (character : Char) : Bool :=
  character == '\t' || character == '\n' || character == '\x0C' || character == '\r'

/-- A character that is shown outside of sequences. -/
def isShown (character : Char) : Bool :=
  isControlSpace character || (0x20 ≤ character.toNat && character.toNat ≠ 0x7F)

/-- The escape character opens a sequence wherever it stands. -/
def isEscape (character : Char) : Bool := character == '\x1B'

/-- Cancel and substitute end every sequence. -/
def isCancel (character : Char) : Bool := character == '\x18' || character == '\x1A'

/-- What is shown of characters inside a sequence; `interrupted` after white space in it. -/
def plainFrom (sequence : Sequence) (interrupted : Bool) : List Char → List Char
  | [] => []
  | character :: rest =>
      if isEscape character then plainFrom .escape false rest
      else if isCancel character then plainFrom .none false rest
      else if interrupted || sequence = .none then
        if isShown character then
          let sequence := if character.toNat < 0x80 then sequence else .none
          character :: plainFrom sequence interrupted rest
        else plainFrom sequence false rest
      else if isControlSpace character && sequence.showsSpace then
        character :: plainFrom sequence true rest
      else plainFrom (sequence.after character) false rest

def plain (text : String) : String := String.ofList (plainFrom .none false text.toList)

example : plain "a\x1b[1mb\x1b]0;c\x07d\x0be\n" = "abde\n" := by decide
example : plain "\x1bPq\x1b\\a\x1b[3\n1;\x07mb" = "a\n1;b" := by decide

end TypedIR.Text
