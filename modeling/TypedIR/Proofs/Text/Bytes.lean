import Mathlib.Data.List.Basic
import TypedIR.Text.ByteEscape

/-!
Contract: texts as bytes, and bytes as printable text.

Owns:
- the bytes of a text as a list, and the round trip of the text through them;
- one byte written with printable characters, and how it is read in front of any text;
- the round trip of every string of bytes through what is written;
- the form of a written text: printable characters without a quote, and a backslash only in front
  of the two digits of an escape.

A character that looks like a digit may follow an escape, since reading takes two digits and no
more.
-/

namespace TypedIR.Text

/-! ### The bytes of a text -/

/-- The bytes from a position on, behind those that were collected before. -/
theorem toList_loop (bytes : ByteArray) (position : Nat) (collected : List UInt8) :
    ByteArray.toList.loop bytes position collected =
      collected.reverse ++ bytes.data.toList.drop position := by
  fun_induction ByteArray.toList.loop bytes position collected with
  | case1 position collected inside inductionHypothesis =>
      have bound : position < bytes.data.toList.length := by simpa using inside
      have byte : bytes.get! position = bytes.data.toList[position] := by
        show bytes.data[position]! = _
        rw [getElem!_pos bytes.data position (by simpa using bound), Array.getElem_toList]
      rw [inductionHypothesis, List.reverse_cons, List.append_assoc, List.drop_eq_getElem_cons bound,
        byte]
      rfl
  | case2 position collected outside =>
      have passed : bytes.data.toList.length ≤ position := by simpa using outside
      rw [List.drop_eq_nil_of_le passed, List.append_nil]

theorem toList_eq (bytes : ByteArray) : bytes.toList = bytes.data.toList :=
  (toList_loop bytes 0 []).trans (List.nil_append _)

theorem fromUTF8?_toUTF8 (text : String) : String.fromUTF8? text.toUTF8 = some text :=
  dif_pos text.isValidUTF8

/-- The text that was encoded is read back. -/
theorem fromUTF8?_bytes (text : String) :
    String.fromUTF8? (ByteArray.mk text.toUTF8.toList.toArray) = some text := by
  rw [toList_eq, Array.toArray_toList]
  exact fromUTF8?_toUTF8 text

variable {byte : UInt8} {character : Char} {text rest : List Char}

/-! ### One byte as printable text -/

/-- Printable ASCII or a blank, but no quote. -/
def IsPrinted (character : Char) : Prop :=
  0x20 ≤ character.toNat ∧ character.toNat ≤ 0x7E ∧ character ≠ '"'

instance (character : Char) : Decidable (IsPrinted character) :=
  inferInstanceAs (Decidable (_ ∧ _ ∧ _))

theorem hexDigitValue?_hexDigit :
    ∀ digit, digit < 16 → hexDigitValue? (hexDigit digit) = some digit := by
  decide

theorem isPrinted_hexDigit :
    ∀ digit, digit < 16 → IsPrinted (hexDigit digit) ∧ hexDigit digit ≠ '\\' := by
  decide

/-- The character that a plain byte is written as has the code of the byte. -/
theorem toNat_plain (byte : UInt8) : (Char.ofNat byte.toNat).toNat = byte.toNat := by
  have small := byte.toNat_lt
  have valid : byte.toNat.isValidChar := .inl (by omega)
  rw [Char.ofNat, dif_pos valid]
  rfl

theorem isPlainByte_iff :
    isPlainByte byte = true ↔
      IsPrinted (Char.ofNat byte.toNat) ∧ Char.ofNat byte.toNat ≠ '\\' := by
  have quote : Char.ofNat byte.toNat = '"' ↔ byte.toNat = 0x22 := by
    rw [← Char.toNat_inj, toNat_plain]
    rfl
  have backslash : Char.ofNat byte.toNat = '\\' ↔ byte.toNat = 0x5C := by
    rw [← Char.toNat_inj, toNat_plain]
    rfl
  simp only [isPlainByte, IsPrinted, ne_eq, quote, backslash, toNat_plain, Bool.and_eq_true,
    decide_eq_true_eq, bne_iff_ne, and_assoc]

theorem isPrinted_of_mem_escapeByte (member : character ∈ escapeByte byte) :
    IsPrinted character := by
  have small := byte.toNat_lt
  rw [escapeByte] at member
  by_cases plain : isPlainByte byte
  · rw [if_pos plain, List.mem_singleton] at member
    exact member ▸ (isPlainByte_iff.mp plain).1
  · rw [if_neg plain] at member
    simp only [List.mem_cons, List.not_mem_nil, or_false] at member
    rcases member with rfl | rfl | rfl
    · decide
    · exact (isPrinted_hexDigit _ (by omega)).1
    · exact (isPrinted_hexDigit _ (by omega)).1

/-! ### Reading -/

theorem unescapeBytes_cons (notEscape : character ≠ '\\') (rest : List Char) :
    unescapeBytes (character :: rest) =
      (unescapeBytes rest).map (UInt8.ofNat character.toNat :: ·) := by
  rw [unescapeBytes.eq_def]
  split
  · next same => cases same
  · next same => exact absurd (List.cons.inj same).1 notEscape
  · next other tail _ same =>
      obtain ⟨rfl, rfl⟩ := List.cons.inj same
      rw [if_neg notEscape]
      cases unescapeBytes rest <;> rfl

/-- A written byte is read as that byte, whatever stands behind it. -/
theorem unescapeBytes_escapeByte_append (byte : UInt8) (rest : List Char) :
    unescapeBytes (escapeByte byte ++ rest) = (unescapeBytes rest).map (byte :: ·) := by
  rw [escapeByte]
  by_cases plain : isPlainByte byte
  · have notEscape := (isPlainByte_iff.mp plain).2
    rw [if_pos plain, List.singleton_append, unescapeBytes_cons notEscape, toNat_plain,
      UInt8.ofNat_toNat]
  · have small := byte.toNat_lt
    have high := hexDigitValue?_hexDigit (byte.toNat / 16) (by omega)
    have low := hexDigitValue?_hexDigit (byte.toNat % 16) (by omega)
    have whole : byte.toNat / 16 * 16 + byte.toNat % 16 = byte.toNat := by omega
    rw [if_neg plain, List.cons_append, List.cons_append, List.singleton_append, unescapeBytes,
      high, low]
    simp only [Option.bind_eq_bind, Option.bind_some, whole, UInt8.ofNat_toNat]
    cases unescapeBytes rest <;> rfl

theorem unescapeBytes_escapeBytes (bytes : List UInt8) :
    unescapeBytes (escapeBytes bytes) = some bytes := by
  induction bytes with
  | nil => rfl
  | cons byte bytes inductionHypothesis =>
      rw [escapeBytes, List.flatMap_cons, unescapeBytes_escapeByte_append]
      exact congrArg (Option.map (byte :: ·)) inductionHypothesis

/-! ### The form of written texts -/

/-- The text goes on with the two digits of an escape. -/
def ContinuesEscape (text : List Char) : Prop :=
  ∃ high low rest, text = high :: low :: rest ∧
    (hexDigitValue? high).isSome ∧ (hexDigitValue? low).isSome

/-- The text is of the form of a written one, and the bytes are what is read from it. -/
structure Writes (bytes : List UInt8) (text : List Char) : Prop where
  read : unescapeBytes text = some bytes
  printed : ∀ character ∈ text, IsPrinted character
  escapes : ∀ front rest, text = front ++ '\\' :: rest → ContinuesEscape rest

/-- A backslash in a written byte is the first character of an escape. -/
theorem backslash_of_escapeByte_append {front : List Char}
    (split : escapeByte byte ++ text = front ++ '\\' :: rest) :
    ContinuesEscape rest ∨ ∃ later, text = later ++ '\\' :: rest := by
  have small := byte.toNat_lt
  rw [escapeByte] at split
  by_cases plain : isPlainByte byte
  · rw [if_pos plain] at split
    cases front with
    | nil => exact absurd (List.cons.inj split).1 (isPlainByte_iff.mp plain).2
    | cons first front => exact .inr ⟨front, (List.cons.inj split).2⟩
  · have high : byte.toNat / 16 < 16 := by omega
    have low : byte.toNat % 16 < 16 := by omega
    rw [if_neg plain] at split
    -- The backslash is the first of the three characters, for digits are none.
    rcases front with _ | ⟨first, _ | ⟨second, _ | ⟨third, front⟩⟩⟩
    · refine .inl ⟨_, _, text, (List.cons.inj split).2.symm, ?_, ?_⟩
      · rw [hexDigitValue?_hexDigit _ high]
        rfl
      · rw [hexDigitValue?_hexDigit _ low]
        rfl
    · exact absurd (List.cons.inj (List.cons.inj split).2).1 (isPrinted_hexDigit _ high).2
    · exact absurd (List.cons.inj (List.cons.inj (List.cons.inj split).2).2).1
        (isPrinted_hexDigit _ low).2
    · exact .inr ⟨front, (List.cons.inj (List.cons.inj (List.cons.inj split).2).2).2⟩

theorem escapeBytes_writes (bytes : List UInt8) : Writes bytes (escapeBytes bytes) where
  read := unescapeBytes_escapeBytes bytes
  printed := by
    intro character member
    obtain ⟨byte, _, within⟩ := List.mem_flatMap.mp member
    exact isPrinted_of_mem_escapeByte within
  escapes := by
    induction bytes with
    | nil => exact fun front rest split => by simp [escapeBytes] at split
    | cons byte bytes inductionHypothesis =>
        intro front rest split
        rcases backslash_of_escapeByte_append split with first | ⟨later, split⟩
        · exact first
        · exact inductionHypothesis later rest split

example : escapeBytes [0x68, 0x69, 0x22, 0x0A, 0x41] =
    ['h', 'i', '\\', '2', '2', '\\', '0', 'A', 'A'] := by decide

end TypedIR.Text
