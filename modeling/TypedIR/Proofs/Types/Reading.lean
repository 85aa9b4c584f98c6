import Mathlib.Data.List.Permutation
import Mathlib.Data.List.TakeWhile
import TypedIR.Proofs.Context.Lookup
import TypedIR.Proofs.Types.Grammar
import TypedIR.Types.Reader

/-!
Contract: the reader of types accepts the texts of the grammar.

Owns:
- what the reader finds at the front of a text, token by token, as an equivalence for each
  of its functions;
- soundness and completeness of the reader;
- the reader's budget, which decides nothing;
- the derivation of the text that a term prints, and that reading it gives the term.

The budget pays for one level of the grammar at a time and each level consumes a character, so
twice the length of a text is enough whether the text is accepted or not.
-/

/-! ## Reading texts -/

namespace TypedIR

namespace TypeTerm

open Text

/-! ### Tokens -/

theorem afterWord?_eq_some_iff {word characters rest : List Char} :
    afterWord? word characters = some rest ↔ characters = word ++ rest := by
  induction word generalizing characters with
  | nil => simp [afterWord?]
  | cons expected word inductionHypothesis =>
      cases characters with
      | nil => simp [afterWord?]
      | cons first others =>
          by_cases same : expected = first
          · simp [afterWord?, same, inductionHypothesis]
          · simp [afterWord?, same, Ne.symm same]

section Tokens

variable {first : Char} (solid : isBlank first = false)

include solid

/-- A token is found where it stands behind blanks. -/
theorem after?_eq_some_iff {word characters rest : List Char} :
    after? (first :: word) characters = some rest ↔
      ∃ before : Blanks, characters = before.written (first :: word) ++ rest := by
  constructor
  · intro found
    refine ⟨⟨characters.takeWhile isBlank, fun _ member => List.mem_takeWhile_imp member⟩, ?_⟩
    rw [Blanks.written, List.append_assoc, ← afterWord?_eq_some_iff.mp found]
    exact List.takeWhile_append_dropWhile.symm
  · rintro ⟨before, rfl⟩
    rw [after?, before.dropBlanks_written solid, ← List.cons_append]
    exact afterWord?_eq_some_iff.mpr rfl

theorem after?_written (before : Blanks) (word rest : List Char) :
    after? (first :: word) (before.written (first :: word) ++ rest) = some rest :=
  (after?_eq_some_iff solid).mpr ⟨before, rfl⟩

theorem after?_other {expected : Char} (other : expected ≠ first) (before : Blanks)
    (word others rest : List Char) :
    after? (expected :: word) (before.written (first :: others) ++ rest) = none := by
  rw [after?, before.dropBlanks_written solid, afterWord?, if_neg other]

end Tokens

theorem after?_brace_characters (derivation : Derivation) (rest : List Char) :
    after? ['}'] (derivation.characters ++ rest) = none := by
  obtain ⟨before, word, spelled⟩ := derivation.starts
  have other : '}' ≠ derivation.mark := by
    intro same
    exact absurd (same ▸ derivation.mark_mem) (by decide)
  rw [spelled]
  exact after?_other derivation.mark_solid other before [] word rest

/-- A number is read where a numeral stands behind blanks, up to its last digit. -/
theorem readNumber_eq_ok_iff {characters rest : List Char} {value : UInt32} :
    readNumber characters = .ok (value, rest) ↔
      ∃ (before : Blanks) (numeral : Numeral), numeral.value = value ∧ NoDigit rest ∧
        characters = before.written numeral.digits ++ rest := by
  constructor
  · intro read
    simp only [readNumber] at read
    split at read
    · cases read
    · next fine =>
      obtain ⟨nonempty, small⟩ := not_or.mp fine
      cases read
      refine ⟨⟨characters.takeWhile isBlank, fun _ member => List.mem_takeWhile_imp member⟩,
        ⟨(dropBlanks characters).takeWhile isDigit, by simpa using nonempty,
          fun _ member => List.mem_takeWhile_imp (p := isDigit) member, Nat.not_le.mp small⟩,
        rfl, ?_, ?_⟩
      · intro first leads
        have stopped := List.head?_dropWhile_not isDigit (dropBlanks characters)
        rw [leads] at stopped
        exact stopped
      · rw [Blanks.written, List.append_assoc, List.takeWhile_append_dropWhile]
        exact List.takeWhile_append_dropWhile.symm
  · rintro ⟨before, numeral, rfl, clear, rfl⟩
    have digits : (numeral.digits ++ rest).takeWhile isDigit = numeral.digits :=
      numeral.takeWhile_append clear
    have behind : (numeral.digits ++ rest).dropWhile isDigit = rest := by
      have whole := List.takeWhile_append_dropWhile (p := isDigit) (l := numeral.digits ++ rest)
      rw [digits] at whole
      exact List.append_cancel_left whole
    simp only [readNumber, numeral.dropBlanks_written, digits, behind]
    rw [if_neg]
    · rfl
    · exact not_or.mpr ⟨by simpa using numeral.nonempty, Nat.not_le.mpr numeral.small⟩

/-! ### The alternatives -/

/-- What the reader has read as a type with a budget of one more, by its first token. -/
inductive ReadsType (budget : Nat) : List Char → TypeTerm → List Char → Prop
  | void (before : Blanks) (rest : List Char) :
      ReadsType budget (before.written ['v', 'o', 'i', 'd'] ++ rest) .void rest
  | integer (before : Blanks) {behind rest : List Char} {bits : UInt32}
      (number : readNumber behind = .ok (bits, rest)) :
      ReadsType budget (before.written ['i'] ++ behind) (.integer bits) rest
  | array (before beforeCross beforeClose : Blanks) {behind inner rest : List Char}
      {length : UInt32} {element : TypeTerm}
      (number : readNumber behind = .ok (length, beforeCross.written ['x'] ++ inner))
      (read : readType budget inner = .ok (element, beforeClose.written [']'] ++ rest)) :
      ReadsType budget (before.written ['['] ++ behind) (.array element length) rest
  | packed (before beforeClose : Blanks) {inner rest : List Char} {fields : List TypeTerm}
      (read : readFields budget inner = .ok (fields, beforeClose.written ['>'] ++ rest)) :
      ReadsType budget (before.written ['<', '{'] ++ inner) (.struct fields true) rest
  | plain (before : Blanks) {inner rest : List Char} {fields : List TypeTerm}
      (read : readFields budget inner = .ok (fields, rest)) :
      ReadsType budget (before.written ['{'] ++ inner) (.struct fields false) rest

section Alternatives

variable {budget : Nat} {characters rest : List Char} {term : TypeTerm}

theorem ReadsType.of_readType (read : readType (budget + 1) characters = .ok (term, rest)) :
    ReadsType budget characters term rest := by
  cases voids : after? ['v', 'o', 'i', 'd'] characters with
  | some behind =>
      simp only [readType, voids] at read
      cases read
      obtain ⟨before, rfl⟩ := (after?_eq_some_iff rfl).mp voids
      exact .void before rest
  | none =>
  cases integers : after? ['i'] characters with
  | some behind =>
      simp only [readType, voids, integers] at read
      obtain ⟨⟨bits, left⟩, number, returned⟩ := bind_eq_ok.mp read
      cases returned
      obtain ⟨before, rfl⟩ := (after?_eq_some_iff rfl).mp integers
      exact .integer before number
  | none =>
  cases arrays : after? ['['] characters with
  | some behind =>
      simp only [readType, voids, integers, arrays] at read
      obtain ⟨⟨length, crossed⟩, number, read⟩ := bind_eq_ok.mp read
      cases crosses : after? ['x'] crossed with
      | none => rw [crosses] at read; cases read
      | some inner =>
          simp only [crosses] at read
          obtain ⟨⟨element, closed⟩, inside, read⟩ := bind_eq_ok.mp read
          cases closes : after? [']'] closed with
          | none => rw [closes] at read; cases read
          | some left =>
              simp only [closes] at read
              cases read
              obtain ⟨before, rfl⟩ := (after?_eq_some_iff rfl).mp arrays
              obtain ⟨beforeCross, rfl⟩ := (after?_eq_some_iff rfl).mp crosses
              obtain ⟨beforeClose, rfl⟩ := (after?_eq_some_iff rfl).mp closes
              exact .array before beforeCross beforeClose number inside
  | none =>
  cases packs : after? ['<', '{'] characters with
  | some inner =>
      simp only [readType, voids, integers, arrays, packs] at read
      obtain ⟨⟨fields, closed⟩, inside, read⟩ := bind_eq_ok.mp read
      cases closes : after? ['>'] closed with
      | none => rw [closes] at read; cases read
      | some left =>
          simp only [closes] at read
          cases read
          obtain ⟨before, rfl⟩ := (after?_eq_some_iff rfl).mp packs
          obtain ⟨beforeClose, rfl⟩ := (after?_eq_some_iff rfl).mp closes
          exact .packed before beforeClose inside
  | none =>
  cases plains : after? ['{'] characters with
  | some inner =>
      simp only [readType, voids, integers, arrays, packs, plains] at read
      obtain ⟨⟨fields, left⟩, inside, returned⟩ := bind_eq_ok.mp read
      cases returned
      obtain ⟨before, rfl⟩ := (after?_eq_some_iff rfl).mp plains
      exact .plain before inside
  | none =>
      simp only [readType, voids, integers, arrays, packs, plains] at read
      cases read

/-- The first character of a token rules out all other alternatives. -/
theorem ReadsType.readType (reads : ReadsType budget characters term rest) :
    readType (budget + 1) characters = .ok (term, rest) := by
  cases reads with
  | void before =>
      simp only [TypeTerm.readType, after?_written (show isBlank 'v' = false from rfl)]
  | @integer before behind _ bits number =>
      have others : ∀ {expected : Char}, expected ≠ 'i' → ∀ word,
          after? (expected :: word) (before.written ['i'] ++ behind) = none :=
        fun apart word => after?_other rfl apart before word [] behind
      simp only [TypeTerm.readType, others (show 'v' ≠ 'i' by decide),
        after?_written (show isBlank 'i' = false from rfl)]
      exact bind_eq_ok.mpr ⟨_, number, rfl⟩
  | @array before beforeCross beforeClose behind inner _ length element number read =>
      have others : ∀ {expected : Char}, expected ≠ '[' → ∀ word,
          after? (expected :: word) (before.written ['['] ++ behind) = none :=
        fun apart word => after?_other rfl apart before word [] behind
      simp only [TypeTerm.readType, others (show 'v' ≠ '[' by decide),
        others (show 'i' ≠ '[' by decide), after?_written (show isBlank '[' = false from rfl)]
      refine bind_eq_ok.mpr ⟨_, number, ?_⟩
      simp only [after?_written (show isBlank 'x' = false from rfl)]
      refine bind_eq_ok.mpr ⟨_, read, ?_⟩
      simp only [after?_written (show isBlank ']' = false from rfl)]
      rfl
  | @packed before beforeClose inner _ fields read =>
      have others : ∀ {expected : Char}, expected ≠ '<' → ∀ word,
          after? (expected :: word) (before.written ['<', '{'] ++ inner) = none :=
        fun apart word => after?_other rfl apart before word ['{'] inner
      simp only [TypeTerm.readType, others (show 'v' ≠ '<' by decide),
        others (show 'i' ≠ '<' by decide), others (show '[' ≠ '<' by decide),
        after?_written (show isBlank '<' = false from rfl)]
      refine bind_eq_ok.mpr ⟨_, read, ?_⟩
      simp only [after?_written (show isBlank '>' = false from rfl)]
      rfl
  | @plain before inner _ fields read =>
      have others : ∀ {expected : Char}, expected ≠ '{' → ∀ word,
          after? (expected :: word) (before.written ['{'] ++ inner) = none :=
        fun apart word => after?_other rfl apart before word [] inner
      simp only [TypeTerm.readType, others (show 'v' ≠ '{' by decide),
        others (show 'i' ≠ '{' by decide), others (show '[' ≠ '{' by decide),
        others (show '<' ≠ '{' by decide), after?_written (show isBlank '{' = false from rfl)]
      exact bind_eq_ok.mpr ⟨_, read, rfl⟩

/-- What the reader has read behind a field with a budget of one more. -/
inductive ReadsOthers (budget : Nat) : List Char → List TypeTerm → List Char → Prop
  | close (beforeClose : Blanks) (rest : List Char) :
      ReadsOthers budget (beforeClose.written ['}'] ++ rest) [] rest
  | more (beforeComma : Blanks) {behind rest : List Char} {fields : List TypeTerm}
      (read : readFieldList budget behind = .ok (fields, rest)) :
      ReadsOthers budget (beforeComma.written [','] ++ behind) fields rest

theorem readFieldList_eq_ok_iff {fields : List TypeTerm} :
    readFieldList (budget + 1) characters = .ok (fields, rest) ↔
      ∃ field others behind, fields = field :: others ∧
        readType budget characters = .ok (field, behind) ∧
        ReadsOthers budget behind others rest := by
  constructor
  · intro read
    rw [readFieldList] at read
    obtain ⟨⟨field, behind⟩, first, read⟩ := bind_eq_ok.mp read
    cases closes : after? ['}'] behind with
    | some left =>
        simp only [closes] at read
        cases read
        obtain ⟨beforeClose, rfl⟩ := (after?_eq_some_iff rfl).mp closes
        exact ⟨field, [], _, rfl, first, .close beforeClose rest⟩
    | none =>
    cases commas : after? [','] behind with
    | none =>
        simp only [closes, commas] at read
        cases read
    | some next =>
        simp only [closes, commas] at read
        obtain ⟨⟨others, left⟩, later, returned⟩ := bind_eq_ok.mp read
        cases returned
        obtain ⟨beforeComma, rfl⟩ := (after?_eq_some_iff rfl).mp commas
        exact ⟨field, others, _, rfl, first, .more beforeComma later⟩
  · rintro ⟨field, others, behind, rfl, first, reads⟩
    rw [readFieldList]
    refine bind_eq_ok.mpr ⟨_, first, ?_⟩
    cases reads with
    | close beforeClose =>
        simp only [after?_written (show isBlank '}' = false from rfl)]
        rfl
    | @more beforeComma next _ _ read =>
        simp only [after?_other (show isBlank ',' = false from rfl)
          (show '}' ≠ ',' by decide) beforeComma [] [] next,
          after?_written (show isBlank ',' = false from rfl)]
        exact bind_eq_ok.mpr ⟨_, read, rfl⟩

end Alternatives

/-! ### Soundness -/

section Soundness

variable {budget : Nat} {characters rest : List Char}

/-- What the reader reads as fields has a derivation, if that holds for lists of fields. -/
theorem readFields_sound {fields : List TypeTerm}
    (lists : ∀ {characters fields rest}, readFieldList budget characters = .ok (fields, rest) →
      ∃ (first : Derivation) (others : OthersDerivation), first.term :: others.terms = fields ∧
        characters = first.characters ++ (others.characters ++ rest))
    (read : readFields budget characters = .ok (fields, rest)) :
    ∃ derivation : FieldsDerivation, derivation.terms = fields ∧
      characters = derivation.characters ++ rest := by
  cases closes : after? ['}'] characters with
  | some behind =>
      simp only [readFields, closes] at read
      cases read
      obtain ⟨beforeClose, rfl⟩ := (after?_eq_some_iff rfl).mp closes
      exact ⟨.none beforeClose, rfl, rfl⟩
  | none =>
      simp only [readFields, closes] at read
      obtain ⟨first, others, rfl, rfl⟩ := lists read
      exact ⟨.some first others, rfl, (List.append_assoc _ _ _).symm⟩

/-- By induction on the budget, of which the functions that read types and lists of fields
spend one before they call each other. -/
theorem reader_sound (budget : Nat) :
    (∀ {characters term rest}, readType budget characters = .ok (term, rest) →
      ∃ derivation : Derivation, derivation.term = term ∧
        characters = derivation.characters ++ rest) ∧
    (∀ {characters fields rest}, readFieldList budget characters = .ok (fields, rest) →
      ∃ (first : Derivation) (others : OthersDerivation), first.term :: others.terms = fields ∧
        characters = first.characters ++ (others.characters ++ rest)) := by
  induction budget with
  | zero =>
      constructor
      · intro characters term rest read
        rw [readType] at read
        cases read
      · intro characters fields rest read
        rw [readFieldList] at read
        cases read
  | succ budget inductionHypothesis =>
      obtain ⟨types, lists⟩ := inductionHypothesis
      constructor
      · intro characters term rest read
        cases ReadsType.of_readType read with
        | void before => exact ⟨.void before, rfl, rfl⟩
        | integer before number =>
            obtain ⟨beforeBits, bits, rfl, _, rfl⟩ := readNumber_eq_ok_iff.mp number
            exact ⟨.integer before beforeBits bits, rfl, by simp [Derivation.characters]⟩
        | array before beforeCross beforeClose number inside =>
            obtain ⟨beforeLength, length, rfl, _, rfl⟩ := readNumber_eq_ok_iff.mp number
            obtain ⟨element, rfl, rfl⟩ := types inside
            exact ⟨.array before beforeLength length beforeCross element beforeClose, rfl,
              by simp [Derivation.characters]⟩
        | packed before beforeClose inside =>
            obtain ⟨fields, rfl, rfl⟩ := readFields_sound lists inside
            exact ⟨.packed before fields beforeClose, rfl, by simp [Derivation.characters]⟩
        | plain before inside =>
            obtain ⟨fields, rfl, rfl⟩ := readFields_sound lists inside
            exact ⟨.plain before fields, rfl, by simp [Derivation.characters]⟩
      · intro characters fields rest read
        obtain ⟨field, others, behind, rfl, first, reads⟩ := readFieldList_eq_ok_iff.mp read
        obtain ⟨derivation, rfl, rfl⟩ := types first
        cases reads with
        | close beforeClose => exact ⟨derivation, .close beforeClose, rfl, rfl⟩
        | more beforeComma read =>
            obtain ⟨next, later, rfl, rfl⟩ := lists read
            exact ⟨derivation, .more beforeComma next later, rfl,
              by simp [OthersDerivation.characters]⟩

end Soundness

/-! ### Completeness -/

mutual

/-- A type is read from the front of a text, if no digit follows it. -/
theorem Derivation.readType (derivation : Derivation) {budget : Nat} {rest : List Char}
    (enough : derivation.characters.length ≤ budget) (clear : NoDigit rest) :
    readType budget (derivation.characters ++ rest) = .ok (derivation.term, rest) := by
  obtain ⟨budget, rfl⟩ : ∃ smaller, budget = smaller + 1 :=
    Nat.exists_eq_succ_of_ne_zero (by have := derivation.length_pos; omega)
  apply ReadsType.readType
  match derivation with
  | .void before => exact .void before rest
  | .integer before beforeBits bits =>
      rw [Derivation.characters, List.append_assoc]
      exact .integer before (readNumber_eq_ok_iff.mpr ⟨beforeBits, bits, rfl, clear, rfl⟩)
  | .array before beforeLength length beforeCross element beforeClose =>
      simp only [Derivation.characters, Blanks.written, List.length_append,
        List.length_cons] at enough
      simp only [Derivation.characters, List.append_assoc]
      refine .array before beforeCross beforeClose (readNumber_eq_ok_iff.mpr
        ⟨beforeLength, length, rfl, beforeCross.noDigit_written rfl [] _, rfl⟩) ?_
      exact element.readType (by omega) (beforeClose.noDigit_written rfl [] rest)
  | .packed before fields beforeClose =>
      simp only [Derivation.characters, Blanks.written, List.length_append,
        List.length_cons] at enough
      simp only [Derivation.characters, List.append_assoc]
      exact .packed before beforeClose (fields.readFields (by omega))
  | .plain before fields =>
      simp only [Derivation.characters, Blanks.written, List.length_append,
        List.length_cons] at enough
      simp only [Derivation.characters, List.append_assoc]
      exact .plain before (fields.readFields (by omega))

theorem FieldsDerivation.readFields (fields : FieldsDerivation) {budget : Nat} {rest : List Char}
    (enough : fields.characters.length ≤ budget) :
    readFields budget (fields.characters ++ rest) = .ok (fields.terms, rest) := by
  match fields with
  | .none beforeClose =>
      simp only [FieldsDerivation.characters, readFields,
        after?_written (show isBlank '}' = false from rfl)]
      rfl
  | .some first others =>
      rw [FieldsDerivation.characters, List.length_append] at enough
      rw [FieldsDerivation.characters, List.append_assoc, readFields, after?_brace_characters]
      obtain ⟨budget, rfl⟩ : ∃ smaller, budget = smaller + 1 :=
        Nat.exists_eq_succ_of_ne_zero (by have := first.length_pos; omega)
      have lengths := others.length_pos
      refine readFieldList_eq_ok_iff.mpr ⟨_, _, _, rfl,
        first.readType (by omega) (others.noDigit rest), others.readsOthers ?_⟩
      have := first.length_pos
      omega

theorem OthersDerivation.readsOthers (others : OthersDerivation) {budget : Nat}
    {rest : List Char} (enough : others.characters.length ≤ budget) :
    ReadsOthers budget (others.characters ++ rest) others.terms rest := by
  match others with
  | .close beforeClose => exact .close beforeClose rest
  | .more beforeComma next later =>
      simp only [OthersDerivation.characters, Blanks.written, List.length_append,
        List.length_cons] at enough
      simp only [OthersDerivation.characters, List.append_assoc]
      obtain ⟨budget, rfl⟩ : ∃ smaller, budget = smaller + 1 :=
        Nat.exists_eq_succ_of_ne_zero (by omega)
      refine .more beforeComma (readFieldList_eq_ok_iff.mpr ⟨_, _, _, rfl,
        next.readType (by omega) (later.noDigit rest), later.readsOthers (by omega)⟩)

end

/-! ### The budget -/

theorem length_lt_of_after? {first : Char} (solid : isBlank first = false)
    {word characters rest : List Char} (found : after? (first :: word) characters = some rest) :
    rest.length < characters.length := by
  obtain ⟨before, rfl⟩ := (after?_eq_some_iff solid).mp found
  simp only [Blanks.written, List.length_append, List.length_cons]
  omega

theorem length_le_of_readNumber {characters rest : List Char} {value : UInt32}
    (read : readNumber characters = .ok (value, rest)) : rest.length ≤ characters.length := by
  obtain ⟨before, numeral, _, _, rfl⟩ := readNumber_eq_ok_iff.mp read
  simp only [List.length_append]
  omega

theorem length_lt_of_readType {budget : Nat} {characters rest : List Char} {term : TypeTerm}
    (read : readType budget characters = .ok (term, rest)) : rest.length < characters.length := by
  obtain ⟨derivation, _, rfl⟩ := (reader_sound budget).1 read
  have := derivation.length_pos
  rw [List.length_append]
  omega

section Budget

variable {budget other : Nat} {characters : List Char}

/-- Reading a type depends on the budget by what stands behind its first token only. -/
theorem readType_congr
    (types : ∀ shorter : List Char, shorter.length < characters.length →
      readType budget shorter = readType other shorter)
    (lists : ∀ shorter : List Char, shorter.length < characters.length →
      readFieldList budget shorter = readFieldList other shorter) :
    readType (budget + 1) characters = readType (other + 1) characters := by
  have fields : ∀ shorter : List Char, shorter.length < characters.length →
      readFields budget shorter = readFields other shorter := by
    intro shorter less
    rw [readFields, readFields, lists shorter less]
  simp only [readType]
  cases after? ['v', 'o', 'i', 'd'] characters with
  | some behind => rfl
  | none =>
  cases after? ['i'] characters with
  | some behind => rfl
  | none =>
  cases arrays : after? ['['] characters with
  | some behind =>
      cases number : readNumber behind with
      | error fault => simp only [number, bind, Except.bind]
      | ok found =>
          obtain ⟨length, crossed⟩ := found
          cases crosses : after? ['x'] crossed with
          | none => simp only [number, bind, Except.bind, crosses]
          | some inner =>
              have afterBracket := length_lt_of_after? rfl arrays
              have afterNumber := length_le_of_readNumber number
              have afterCross := length_lt_of_after? rfl crosses
              simp only [number, bind, Except.bind, crosses, types inner (by omega)]
  | none =>
  cases packs : after? ['<', '{'] characters with
  | some inner => simp only [fields inner (length_lt_of_after? rfl packs)]
  | none =>
  cases plains : after? ['{'] characters with
  | some inner => simp only [fields inner (length_lt_of_after? rfl plains)]
  | none => rfl

theorem readFieldList_congr
    (types : readType budget characters = readType other characters)
    (lists : ∀ shorter : List Char, shorter.length < characters.length →
      readFieldList budget shorter = readFieldList other shorter) :
    readFieldList (budget + 1) characters = readFieldList (other + 1) characters := by
  simp only [readFieldList, types]
  cases first : readType other characters with
  | error fault => rfl
  | ok found =>
      obtain ⟨field, behind⟩ := found
      simp only [bind, Except.bind]
      cases after? ['}'] behind with
      | some left => rfl
      | none =>
      cases commas : after? [','] behind with
      | none => rfl
      | some next =>
          have afterField := length_lt_of_readType first
          have afterComma := length_lt_of_after? rfl commas
          simp only [lists next (by omega)]

end Budget

/-- By induction on the budget: a level of the grammar takes two of it, one for a field list and
one for a type, and there are no more levels than characters. -/
theorem reader_settled (budget : Nat) :
    (∀ characters : List Char, 2 * characters.length + 1 ≤ budget →
      readType (budget + 1) characters = readType budget characters) ∧
    (∀ characters : List Char, 2 * characters.length + 2 ≤ budget →
      readFieldList (budget + 1) characters = readFieldList budget characters) := by
  induction budget with
  | zero => exact ⟨fun _ enough => by omega, fun _ enough => by omega⟩
  | succ budget inductionHypothesis =>
      obtain ⟨types, lists⟩ := inductionHypothesis
      constructor
      · intro characters enough
        exact readType_congr (fun shorter less => types shorter (by omega))
          (fun shorter less => lists shorter (by omega))
      · intro characters enough
        exact readFieldList_congr (types characters (by omega))
          (fun shorter less => lists shorter (by omega))

theorem readType_of_enough {budget larger : Nat} {characters : List Char}
    (enough : 2 * characters.length + 1 ≤ budget) (more : budget ≤ larger) :
    readType larger characters = readType budget characters := by
  induction larger, more using Nat.le_induction with
  | base => rfl
  | succ larger more inductionHypothesis =>
      rw [(reader_settled larger).1 characters (by omega), inductionHypothesis]

/-! ### Whole texts -/

theorem read_eq_ok_iff {text : String} {term : TypeTerm} :
    read text = .ok term ↔
      ∃ sentence : Sentence, sentence.characters = text.toList ∧ sentence.term = term := by
  constructor
  · intro accepted
    obtain ⟨⟨found, rest⟩, front, returned⟩ := bind_eq_ok.mp accepted
    simp only at returned
    split at returned
    · next ended =>
      cases returned
      obtain ⟨derivation, rfl, spelled⟩ := (reader_sound _).1 front
      have blank : ∀ character ∈ rest, isBlank character = true := by
        simpa [dropBlanks, List.dropWhile_eq_nil_iff] using ended
      exact ⟨⟨derivation, rest, blank⟩, spelled.symm, rfl⟩
    · cases returned
  · rintro ⟨⟨derivation, trailing⟩, spelled, rfl⟩
    have long : derivation.characters.length ≤ text.toList.length := by
      rw [← spelled]
      exact List.IsPrefix.length_le (List.prefix_append _ _)
    refine bind_eq_ok.mpr ⟨(derivation.term, trailing.characters), ?_, ?_⟩
    · rw [← spelled] at long ⊢
      exact derivation.readType (by omega) trailing.noDigit_characters
    · have ended : dropBlanks trailing.characters = [] :=
        List.dropWhile_eq_nil_iff.mpr trailing.blank
      simp only [ended]
      rfl

/-- The reader accepts the texts that the grammar generates, and no others. It answers with the
term of the text's only derivation, and no larger budget changes what it answers. -/
theorem read_decides_grammar (text : String) :
    ((∃ term, read text = .ok term) ↔ ∃ sentence : Sentence, sentence.characters = text.toList) ∧
    (∀ sentence : Sentence, sentence.characters = text.toList →
      read text = .ok sentence.term ∧
      ∀ other : Sentence, other.characters = text.toList → other = sentence) ∧
    ∀ budget, 2 * text.toList.length + 2 ≤ budget →
      readType budget text.toList = readType (2 * text.toList.length + 2) text.toList := by
  refine ⟨⟨?_, ?_⟩, ?_, ?_⟩
  · rintro ⟨term, accepted⟩
    obtain ⟨sentence, spelled, _⟩ := read_eq_ok_iff.mp accepted
    exact ⟨sentence, spelled⟩
  · rintro ⟨sentence, spelled⟩
    exact ⟨sentence.term, read_eq_ok_iff.mpr ⟨sentence, spelled, rfl⟩⟩
  · intro sentence spelled
    refine ⟨read_eq_ok_iff.mpr ⟨sentence, spelled, rfl⟩, ?_⟩
    intro other otherSpelled
    exact Sentence.eq_of_characters (otherSpelled.trans spelled.symm)
  · intro budget enough
    exact readType_of_enough (by omega) enough

/-- A packed struct with blanks of all sorts between its tokens, and a length with leading
zeros. -/
def spacedSentence : Sentence where
  derivation :=
    .packed oneBlank
      (.some
        (.array noBlanks (.of ['\t'] rfl)
          (.of ['0', '0', '7'] (by decide) rfl (by decide)) noBlanks
          (.integer noBlanks oneBlank (.of ['1'] (by decide) rfl (by decide)))
          (.of ['\n', ' '] rfl))
        (.more oneBlank
          (.plain noBlanks (.none (.of [Char.ofNat 0x3000] rfl)))
          (.close noBlanks)))
      (.of [Char.ofNat 0x2028] rfl)
  trailing := .of ['\r', '\n'] rfl

/-- A blank inside a token and a comma in front of a closing brace end a sentence nowhere. -/
theorem read_decides_spaced_texts :
    read " <\x7b[\t007xi 1\n ] ,\x7b\u3000\x7d\x7d\u2028>\r\n" =
        .ok (.struct [.array (.integer 1) 7, .struct [] false] true) ∧
      (¬ ∃ sentence : Sentence, sentence.characters = "< \x7b\x7d>".toList) ∧
      ¬ ∃ sentence : Sentence, sentence.characters = "\x7b i8, \x7d".toList := by
  refine ⟨?_, ?_, ?_⟩
  · exact ((read_decides_grammar _).2.1 spacedSentence (by decide)).1
  · intro generated
    obtain ⟨term, accepted⟩ := (read_decides_grammar "< \x7b\x7d>").1.mpr generated
    have refused : read "< \x7b\x7d>" = .error .unknownType := by cbv
    rw [refused] at accepted
    cases accepted
  · intro generated
    obtain ⟨term, accepted⟩ := (read_decides_grammar "\x7b i8, \x7d").1.mpr generated
    have refused : read "\x7b i8, \x7d" = .error .unknownType := by cbv
    rw [refused] at accepted
    cases accepted

end TypeTerm

end TypedIR

/-! ## Reading printed terms -/

namespace TypedIR

namespace TypeTerm

open Text

theorem trees_eq_map (terms : List TypeTerm) : trees terms = terms.map tree := by
  induction terms with
  | nil => rfl
  | cons term terms inductionHypothesis => rw [trees, inductionHypothesis, List.map_cons]

/-! ### Derivations of printed terms -/

/-- The numeral that a number prints, without leading zeros. -/
def printedNumeral (number : UInt32) : Numeral where
  digits := Nat.toDigits 10 number.toNat
  nonempty := Nat.toDigits_ne_nil
  decimal := fun _ member => Nat.isDigit_of_mem_toDigits (by decide) (by decide) member
  small := by rw [Nat.ofDigitChars_ten_toDigits]; exact number.toNat_lt

theorem value_printedNumeral (number : UInt32) : (printedNumeral number).value = number := by
  rw [Numeral.value, printedNumeral, Nat.ofDigitChars_ten_toDigits, UInt32.ofNat_toNat]

mutual

/-- The derivation of the text that a term prints, behind blanks. -/
def printed (before : Blanks) : TypeTerm → Derivation
  | .void => .void before
  | .integer bits => .integer before noBlanks (printedNumeral bits)
  | .array element length =>
      .array before noBlanks (printedNumeral length) oneBlank (printed oneBlank element) noBlanks
  | .struct fields true => .packed before (printedFields fields) noBlanks
  | .struct fields false => .plain before (printedFields fields)

def printedFields : List TypeTerm → FieldsDerivation
  | [] => .none noBlanks
  | first :: fields => .some (printed oneBlank first) (printedOthers fields)

def printedOthers : List TypeTerm → OthersDerivation
  | [] => .close oneBlank
  | next :: fields => .more noBlanks (printed oneBlank next) (printedOthers fields)

end

mutual

theorem term_printed (before : Blanks) : (term : TypeTerm) → (printed before term).term = term
  | .void => rfl
  | .integer bits => by rw [printed, Derivation.term, value_printedNumeral]
  | .array element length => by
      rw [printed, Derivation.term, value_printedNumeral, term_printed oneBlank element]
  | .struct fields true => by rw [printed, Derivation.term, terms_printedFields fields]
  | .struct fields false => by rw [printed, Derivation.term, terms_printedFields fields]

theorem terms_printedFields : (fields : List TypeTerm) → (printedFields fields).terms = fields
  | [] => rfl
  | first :: fields => by
      rw [printedFields, FieldsDerivation.terms, term_printed oneBlank first,
        terms_printedOthers fields]

theorem terms_printedOthers : (fields : List TypeTerm) → (printedOthers fields).terms = fields
  | [] => rfl
  | next :: fields => by
      rw [printedOthers, OthersDerivation.terms, term_printed oneBlank next,
        terms_printedOthers fields]

end

mutual

theorem characters_printed (before : Blanks) : (term : TypeTerm) →
    (printed before term).characters = before.characters ++ term.tree.text.toList
  | .void => rfl
  | .integer bits => by
      simp [printed, Derivation.characters, Blanks.written, printedNumeral, tree,
        TypeTree.toList_text_integer]
  | .array element length => by
      simp [printed, Derivation.characters, Blanks.written, printedNumeral, tree,
        TypeTree.toList_text_array, characters_printed _ element]
  | .struct fields true => by
      simp [printed, Derivation.characters, Blanks.written, tree, TypeTree.toList_text_struct,
        trees_eq_map, characters_printedFields fields]
  | .struct fields false => by
      simp [printed, Derivation.characters, Blanks.written, tree, TypeTree.toList_text_struct,
        trees_eq_map, characters_printedFields fields]

theorem characters_printedFields : (fields : List TypeTerm) →
    (printedFields fields).characters = body (fields.map (TypeTree.text ∘ tree))
  | [] => rfl
  | first :: fields => by
      simp [printedFields, FieldsDerivation.characters, body, toList_joined,
        characters_printed oneBlank first, characters_printedOthers fields]

theorem characters_printedOthers : (fields : List TypeTerm) →
    (printedOthers fields).characters =
      continued (fields.map (TypeTree.text ∘ tree)) ++ [' ', '}']
  | [] => rfl
  | next :: fields => by
      simp [printedOthers, OthersDerivation.characters, continued, Blanks.written,
        characters_printed oneBlank next, characters_printedOthers fields]

end

/-! ### Reading terms -/

/-- The text of a term is read back, whatever the term. -/
theorem read_text (term : TypeTerm) : read term.tree.text = .ok term := by
  refine read_eq_ok_iff.mpr ⟨⟨printed noBlanks term, noBlanks⟩, ?_, term_printed noBlanks term⟩
  rw [Sentence.characters, characters_printed]
  exact List.append_nil _

end TypeTerm

end TypedIR
