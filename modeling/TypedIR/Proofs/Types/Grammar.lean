import TypedIR.Proofs.Types.Text
import TypedIR.Text.Blank
import TypedIR.Types.Tree

/-!
Contract: the grammar of written types.

Owns:
- blanks, numerals, and the derivations of
  `T ::= void | i N | [ N x T ] | <{ F > | { F` with `F ::= } | T (, T)* }`;
- the characters that a derivation spells and the term that it denotes;
- a text has one derivation at most, its blanks included.

Does not own: the reader.

Blanks are part of a derivation, in front of each token. The first character of a token is no
blank, so the characters determine where the blanks end, and the first one behind them which
alternative is taken.
-/

namespace TypedIR

namespace TypeTerm

open Text

/-! ### Tokens -/

/-- Blanks in front of a token or at the end of a text. -/
@[ext]
structure Blanks where
  characters : List Char
  blank : ∀ character ∈ characters, isBlank character = true

def Blanks.of (characters : List Char) (blank : characters.all isBlank = true) : Blanks :=
  ⟨characters, List.all_eq_true.mp blank⟩

def noBlanks : Blanks := .of [] rfl

def oneBlank : Blanks := .of [' '] rfl

@[simp]
theorem characters_noBlanks : noBlanks.characters = [] := rfl

@[simp]
theorem characters_oneBlank : oneBlank.characters = [' '] := rfl

/-- A token behind blanks. -/
def Blanks.written (before : Blanks) (token : List Char) : List Char :=
  before.characters ++ token

/-- The digits of a number of 32 bits, leading zeros allowed. -/
@[ext]
structure Numeral where
  digits : List Char
  nonempty : digits ≠ []
  decimal : ∀ digit ∈ digits, digit.isDigit = true
  small : Nat.ofDigitChars 10 digits 0 < UInt32.size

def Numeral.of (digits : List Char) (nonempty : digits ≠ [])
    (decimal : digits.all Char.isDigit = true)
    (small : Nat.ofDigitChars 10 digits 0 < UInt32.size) : Numeral :=
  ⟨digits, nonempty, List.all_eq_true.mp decimal, small⟩

def Numeral.value (numeral : Numeral) : UInt32 :=
  UInt32.ofNat (Nat.ofDigitChars 10 numeral.digits 0)

theorem isBlank_of_isDigit {character : Char} (digit : character.isDigit = true) :
    isBlank character = false := by
  simp only [Char.isDigit, Bool.and_eq_true, decide_eq_true_eq] at digit
  have lower : 48 ≤ character.toNat := digit.1
  have upper : character.toNat ≤ 57 := digit.2
  simp [isBlank, blankRanges]
  omega

theorem isDigit_of_isBlank {character : Char} (blank : isBlank character = true) :
    character.isDigit = false := by
  cases digit : character.isDigit with
  | false => rfl
  | true => rw [isBlank_of_isDigit digit] at blank; cases blank

theorem dropBlanks_solid {first : Char} {rest : List Char} (solid : isBlank first = false) :
    dropBlanks (first :: rest) = first :: rest := by
  rw [dropBlanks, List.dropWhile_cons_of_neg (by rw [solid]; exact Bool.false_ne_true)]

namespace Blanks

variable (before : Blanks)

theorem dropBlanks_append (rest : List Char) :
    dropBlanks (before.characters ++ rest) = dropBlanks rest :=
  List.dropWhile_append_of_pos before.blank

theorem dropBlanks_written {first : Char} (solid : isBlank first = false)
    (word rest : List Char) :
    dropBlanks (before.written (first :: word) ++ rest) = first :: (word ++ rest) := by
  rw [written, List.append_assoc, dropBlanks_append, List.cons_append, dropBlanks_solid solid]

theorem takeWhile_written {first : Char} (solid : isBlank first = false)
    (word rest : List Char) :
    (before.written (first :: word) ++ rest).takeWhile isBlank = before.characters := by
  rw [written, List.append_assoc, List.takeWhile_append_of_pos before.blank, List.cons_append,
    List.takeWhile_cons_of_neg (by rw [solid]; exact Bool.false_ne_true), List.append_nil]

theorem noDigit_append {rest : List Char} (clear : NoDigit rest) :
    NoDigit (before.characters ++ rest) := by
  cases spelled : before.characters with
  | nil => exact clear
  | cons first others =>
      exact noDigit_cons (isDigit_of_isBlank (before.blank first (by simp [spelled])))

theorem noDigit_characters : NoDigit before.characters := by
  have clear : NoDigit (before.characters ++ []) := before.noDigit_append (by simp [NoDigit])
  rwa [List.append_nil] at clear

theorem noDigit_written {first : Char} (other : first.isDigit = false) (word rest : List Char) :
    NoDigit (before.written (first :: word) ++ rest) := by
  rw [written, List.append_assoc]
  exact before.noDigit_append (noDigit_cons other)

end Blanks

/-- Two tokens in front of something start with the same character if the whole texts agree. -/
theorem Blanks.head_eq {left right : Blanks} {first second : Char}
    (firstSolid : isBlank first = false) (secondSolid : isBlank second = false)
    {word other leftRest rightRest : List Char}
    (equal : left.written (first :: word) ++ leftRest =
      right.written (second :: other) ++ rightRest) : first = second := by
  have behind := congrArg dropBlanks equal
  rw [left.dropBlanks_written firstSolid, right.dropBlanks_written secondSolid] at behind
  exact List.head_eq_of_cons_eq behind

/-- The same token in front of something determines the blanks before it and what follows. -/
theorem Blanks.written_append_inj {left right : Blanks} {first : Char}
    (solid : isBlank first = false) {word leftRest rightRest : List Char}
    (equal : left.written (first :: word) ++ leftRest =
      right.written (first :: word) ++ rightRest) : left = right ∧ leftRest = rightRest := by
  have blanks := congrArg (List.takeWhile isBlank) equal
  have behind := congrArg dropBlanks equal
  rw [left.takeWhile_written solid, right.takeWhile_written solid] at blanks
  rw [left.dropBlanks_written solid, right.dropBlanks_written solid] at behind
  exact ⟨Blanks.ext blanks, List.append_cancel_left (List.tail_eq_of_cons_eq behind)⟩

namespace Numeral

variable (numeral : Numeral)

theorem takeWhile_append {rest : List Char} (clear : NoDigit rest) :
    (numeral.digits ++ rest).takeWhile Char.isDigit = numeral.digits :=
  takeWhile_digits numeral.decimal clear

theorem starts : ∃ first word, numeral.digits = first :: word ∧ isBlank first = false := by
  obtain ⟨first, word, spelled⟩ := List.exists_cons_of_ne_nil numeral.nonempty
  exact ⟨first, word, spelled, isBlank_of_isDigit (numeral.decimal first (by simp [spelled]))⟩

theorem dropBlanks_written (before : Blanks) (rest : List Char) :
    dropBlanks (before.written numeral.digits ++ rest) = numeral.digits ++ rest := by
  obtain ⟨first, word, spelled, solid⟩ := numeral.starts
  rw [spelled, before.dropBlanks_written solid, List.cons_append]

end Numeral

/-- A numeral behind blanks ends where no digit follows. -/
theorem Numeral.written_append_inj {leftBefore rightBefore : Blanks} {left right : Numeral}
    {leftRest rightRest : List Char} (leftClear : NoDigit leftRest)
    (rightClear : NoDigit rightRest)
    (equal : leftBefore.written left.digits ++ leftRest =
      rightBefore.written right.digits ++ rightRest) :
    leftBefore = rightBefore ∧ left = right ∧ leftRest = rightRest := by
  have behind := congrArg dropBlanks equal
  rw [left.dropBlanks_written, right.dropBlanks_written] at behind
  have digits : left.digits = right.digits := by
    rw [← left.takeWhile_append leftClear, behind, right.takeWhile_append rightClear]
  rw [digits] at behind equal
  have rests := List.append_cancel_left behind
  rw [rests] at equal
  have blanks := List.append_cancel_right (List.append_cancel_right equal)
  exact ⟨Blanks.ext blanks, Numeral.ext digits, rests⟩

/-! ### Derivations -/

mutual

/-- A derivation of a type. -/
inductive Derivation where
  | void (before : Blanks)
  | integer (before beforeBits : Blanks) (bits : Numeral)
  | array (before beforeLength : Blanks) (length : Numeral) (beforeCross : Blanks)
      (element : Derivation) (beforeClose : Blanks)
  | packed (before : Blanks) (fields : FieldsDerivation) (beforeClose : Blanks)
  | plain (before : Blanks) (fields : FieldsDerivation)

/-- A derivation of what stands behind an opening brace, its closing brace included. -/
inductive FieldsDerivation where
  | none (beforeClose : Blanks)
  | some (first : Derivation) (others : OthersDerivation)

/-- A derivation of what stands behind a field. -/
inductive OthersDerivation where
  | close (beforeClose : Blanks)
  | more (beforeComma : Blanks) (next : Derivation) (others : OthersDerivation)

end

mutual

/-- The characters that a derivation spells. -/
def Derivation.characters : Derivation → List Char
  | .void before => before.written ['v', 'o', 'i', 'd']
  | .integer before beforeBits bits => before.written ['i'] ++ beforeBits.written bits.digits
  | .array before beforeLength length beforeCross element beforeClose =>
      before.written ['['] ++ (beforeLength.written length.digits ++
        (beforeCross.written ['x'] ++ (element.characters ++ beforeClose.written [']'])))
  | .packed before fields beforeClose =>
      before.written ['<', '{'] ++ (fields.characters ++ beforeClose.written ['>'])
  | .plain before fields => before.written ['{'] ++ fields.characters

def FieldsDerivation.characters : FieldsDerivation → List Char
  | .none beforeClose => beforeClose.written ['}']
  | .some first others => first.characters ++ others.characters

def OthersDerivation.characters : OthersDerivation → List Char
  | .close beforeClose => beforeClose.written ['}']
  | .more beforeComma next others =>
      beforeComma.written [','] ++ (next.characters ++ others.characters)

end

mutual

/-- The term that a derivation denotes. -/
def Derivation.term : Derivation → TypeTerm
  | .void _ => .void
  | .integer _ _ bits => .integer bits.value
  | .array _ _ length _ element _ => .array element.term length.value
  | .packed _ fields _ => .struct fields.terms true
  | .plain _ fields => .struct fields.terms false

def FieldsDerivation.terms : FieldsDerivation → List TypeTerm
  | .none _ => []
  | .some first others => first.term :: others.terms

def OthersDerivation.terms : OthersDerivation → List TypeTerm
  | .close _ => []
  | .more _ next others => next.term :: others.terms

end

/-- A derivation of a whole text, blanks at the end included. -/
@[ext]
structure Sentence where
  derivation : Derivation
  trailing : Blanks

namespace Sentence

def characters (sentence : Sentence) : List Char :=
  sentence.derivation.characters ++ sentence.trailing.characters

def term (sentence : Sentence) : TypeTerm := sentence.derivation.term

end Sentence

/-! ### The first token -/

namespace Derivation

/-- The first character that is no blank. -/
def mark : Derivation → Char
  | .void _ => 'v'
  | .integer _ _ _ => 'i'
  | .array _ _ _ _ _ _ => '['
  | .packed _ _ _ => '<'
  | .plain _ _ => '{'

theorem mark_mem (derivation : Derivation) : derivation.mark ∈ ['v', 'i', '[', '<', '{'] := by
  cases derivation <;> simp [mark]

theorem mark_solid (derivation : Derivation) : isBlank derivation.mark = false := by
  cases derivation <;> rfl

theorem starts (derivation : Derivation) :
    ∃ before word, derivation.characters = Blanks.written before (derivation.mark :: word) := by
  cases derivation with
  | void before => exact ⟨before, _, rfl⟩
  | integer before | array before | packed before | plain before =>
      exact ⟨before, _, List.append_assoc _ _ _⟩

theorem length_pos (derivation : Derivation) : 0 < derivation.characters.length := by
  obtain ⟨before, word, spelled⟩ := derivation.starts
  rw [spelled, Blanks.written, List.length_append, List.length_cons]
  omega

theorem mark_eq {left right : Derivation} {leftRest rightRest : List Char}
    (equal : left.characters ++ leftRest = right.characters ++ rightRest) :
    left.mark = right.mark := by
  obtain ⟨before, word, spelled⟩ := left.starts
  obtain ⟨otherBefore, otherWord, otherSpelled⟩ := right.starts
  rw [spelled, otherSpelled] at equal
  exact Blanks.head_eq left.mark_solid right.mark_solid equal

/-- No type starts like a token that starts with another character. -/
theorem ne_written {derivation : Derivation} {first : Char} (solid : isBlank first = false)
    (other : first ∉ ['v', 'i', '[', '<', '{']) {before : Blanks}
    {word rest otherRest : List Char} :
    derivation.characters ++ rest ≠ before.written (first :: word) ++ otherRest := by
  obtain ⟨own, ownWord, spelled⟩ := derivation.starts
  intro equal
  rw [spelled] at equal
  exact other (Blanks.head_eq derivation.mark_solid solid equal ▸ derivation.mark_mem)

end Derivation

theorem OthersDerivation.noDigit (others : OthersDerivation) (rest : List Char) :
    NoDigit (others.characters ++ rest) := by
  cases others with
  | close beforeClose => exact beforeClose.noDigit_written rfl [] rest
  | more beforeComma next others =>
      rw [characters, List.append_assoc]
      exact beforeComma.noDigit_written rfl [] _

theorem OthersDerivation.length_pos (others : OthersDerivation) :
    0 < others.characters.length := by
  cases others with
  | close beforeClose => simp [characters, Blanks.written]
  | more beforeComma next others =>
      simp only [characters, Blanks.written, List.length_append, List.length_singleton]
      omega

/-! ### One derivation for a text -/

mutual

/-- The front of a text has one derivation as a type. -/
theorem Derivation.append_inj (left right : Derivation) {leftRest rightRest : List Char}
    (leftClear : NoDigit leftRest) (rightClear : NoDigit rightRest)
    (equal : left.characters ++ leftRest = right.characters ++ rightRest) :
    left = right ∧ leftRest = rightRest := by
  have marks := Derivation.mark_eq equal
  match left with
  | .void before =>
      cases right with
      | void other =>
          obtain ⟨rfl, rests⟩ := Blanks.written_append_inj rfl equal
          exact ⟨rfl, rests⟩
      | _ => cases marks
  | .integer before beforeBits bits =>
      cases right with
      | integer other otherBeforeBits otherBits =>
          simp only [Derivation.characters, List.append_assoc] at equal
          obtain ⟨rfl, behind⟩ := Blanks.written_append_inj rfl equal
          obtain ⟨rfl, rfl, rests⟩ := Numeral.written_append_inj leftClear rightClear behind
          exact ⟨rfl, rests⟩
      | _ => cases marks
  | .array before beforeLength length beforeCross element beforeClose =>
      cases right with
      | array other otherBeforeLength otherLength otherBeforeCross otherElement otherBeforeClose =>
          simp only [Derivation.characters, List.append_assoc] at equal
          obtain ⟨rfl, numbers⟩ := Blanks.written_append_inj rfl equal
          obtain ⟨rfl, rfl, crosses⟩ := Numeral.written_append_inj
            (Blanks.noDigit_written _ rfl [] _) (Blanks.noDigit_written _ rfl [] _) numbers
          obtain ⟨rfl, elements⟩ := Blanks.written_append_inj rfl crosses
          obtain ⟨rfl, closes⟩ := element.append_inj otherElement
            (Blanks.noDigit_written _ rfl [] _) (Blanks.noDigit_written _ rfl [] _) elements
          obtain ⟨rfl, rests⟩ := Blanks.written_append_inj rfl closes
          exact ⟨rfl, rests⟩
      | _ => cases marks
  | .packed before fields beforeClose =>
      cases right with
      | packed other otherFields otherBeforeClose =>
          simp only [Derivation.characters, List.append_assoc] at equal
          obtain ⟨rfl, behind⟩ := Blanks.written_append_inj rfl equal
          obtain ⟨rfl, closes⟩ := fields.append_inj otherFields behind
          obtain ⟨rfl, rests⟩ := Blanks.written_append_inj rfl closes
          exact ⟨rfl, rests⟩
      | _ => cases marks
  | .plain before fields =>
      cases right with
      | plain other otherFields =>
          simp only [Derivation.characters, List.append_assoc] at equal
          obtain ⟨rfl, behind⟩ := Blanks.written_append_inj rfl equal
          obtain ⟨rfl, rests⟩ := fields.append_inj otherFields behind
          exact ⟨rfl, rests⟩
      | _ => cases marks

theorem FieldsDerivation.append_inj (left right : FieldsDerivation)
    {leftRest rightRest : List Char}
    (equal : left.characters ++ leftRest = right.characters ++ rightRest) :
    left = right ∧ leftRest = rightRest := by
  match left with
  | .none beforeClose =>
      cases right with
      | none other =>
          obtain ⟨rfl, rests⟩ := Blanks.written_append_inj rfl equal
          exact ⟨rfl, rests⟩
      | some first others =>
          rw [FieldsDerivation.characters, FieldsDerivation.characters, List.append_assoc] at equal
          exact absurd equal.symm (Derivation.ne_written rfl (by decide))
  | .some first others =>
      cases right with
      | none other =>
          rw [FieldsDerivation.characters, FieldsDerivation.characters, List.append_assoc] at equal
          exact absurd equal (Derivation.ne_written rfl (by decide))
      | some otherFirst otherOthers =>
          simp only [FieldsDerivation.characters, List.append_assoc] at equal
          obtain ⟨rfl, behind⟩ := first.append_inj otherFirst (others.noDigit _)
            (otherOthers.noDigit _) equal
          obtain ⟨rfl, rests⟩ := others.append_inj otherOthers behind
          exact ⟨rfl, rests⟩

theorem OthersDerivation.append_inj (left right : OthersDerivation)
    {leftRest rightRest : List Char}
    (equal : left.characters ++ leftRest = right.characters ++ rightRest) :
    left = right ∧ leftRest = rightRest := by
  match left with
  | .close beforeClose =>
      cases right with
      | close other =>
          obtain ⟨rfl, rests⟩ := Blanks.written_append_inj rfl equal
          exact ⟨rfl, rests⟩
      | more beforeComma next others =>
          rw [OthersDerivation.characters, OthersDerivation.characters, List.append_assoc] at equal
          cases Blanks.head_eq rfl rfl equal
  | .more beforeComma next others =>
      cases right with
      | close other =>
          rw [OthersDerivation.characters, OthersDerivation.characters, List.append_assoc] at equal
          cases Blanks.head_eq rfl rfl equal
      | more otherComma otherNext otherOthers =>
          simp only [OthersDerivation.characters, List.append_assoc] at equal
          obtain ⟨rfl, behind⟩ := Blanks.written_append_inj rfl equal
          obtain ⟨rfl, later⟩ := next.append_inj otherNext (others.noDigit _)
            (otherOthers.noDigit _) behind
          obtain ⟨rfl, rests⟩ := others.append_inj otherOthers later
          exact ⟨rfl, rests⟩

end

/-- The grammar is unambiguous: a text has one derivation at most. -/
theorem Sentence.eq_of_characters {left right : Sentence}
    (equal : left.characters = right.characters) : left = right := by
  obtain ⟨derivations, blanks⟩ := left.derivation.append_inj right.derivation
    left.trailing.noDigit_characters right.trailing.noDigit_characters equal
  exact Sentence.ext derivations (Blanks.ext blanks)

end TypeTerm

end TypedIR
