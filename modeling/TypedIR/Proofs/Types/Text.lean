import TypedIR.Types.Tree

/-!
Contract: the text of a type determines the type.

Owns:
- flat trees, with no function inside, and proper ones, with a function at most at
  the root;
- where a numeral, a list of words and the text of a flat tree end inside a longer
  text;
- two proper trees of one text are the same.

A numeral ends only where no digit follows, so all statements about parts of a text
ask for that of what stands behind the part.
-/

namespace TypedIR

namespace Text

/-- The characters do not start with a digit. -/
def NoDigit (characters : List Char) : Prop :=
  ∀ first ∈ characters.head?, first.isDigit = false

theorem noDigit_cons {first : Char} {rest : List Char} (other : first.isDigit = false) :
    NoDigit (first :: rest) := by
  intro character same
  have equal : first = character := Option.some.inj same
  rw [← equal]
  exact other

/-! ### Numerals -/

theorem takeWhile_digits {digits rest : List Char}
    (decimal : ∀ digit ∈ digits, digit.isDigit = true) (clear : NoDigit rest) :
    (digits ++ rest).takeWhile Char.isDigit = digits := by
  rw [List.takeWhile_append_of_pos decimal]
  cases rest with
  | nil => simp
  | cons first rest =>
      have other : first.isDigit = false := clear first rfl
      simp [List.takeWhile, other]

theorem takeWhile_toDigits (number : Nat) {rest : List Char} (clear : NoDigit rest) :
    (Nat.toDigits 10 number ++ rest).takeWhile Char.isDigit = Nat.toDigits 10 number :=
  takeWhile_digits (fun _ member => Nat.isDigit_of_mem_toDigits (by omega) (by omega) member) clear

/-- A numeral in front of something else can be read back. -/
theorem toDigits_append_inj {left right : Nat} {leftRest rightRest : List Char}
    (leftClear : NoDigit leftRest) (rightClear : NoDigit rightRest)
    (equal : Nat.toDigits 10 left ++ leftRest = Nat.toDigits 10 right ++ rightRest) :
    left = right ∧ leftRest = rightRest := by
  have digits : Nat.toDigits 10 left = Nat.toDigits 10 right := by
    rw [← takeWhile_toDigits left leftClear, equal, takeWhile_toDigits right rightClear]
  constructor
  · rw [← @Nat.ofDigitChars_ten_toDigits left, digits, Nat.ofDigitChars_ten_toDigits]
  · rw [digits] at equal
    exact List.append_cancel_left equal

/-! ### Lists of words -/

/-- Words, each behind a comma and a blank. -/
def continued (words : List String) : List Char :=
  words.flatMap fun word => ',' :: ' ' :: word.toList

theorem toList_joined (first : String) (rest : List String) :
    (joined ", " (first :: rest)).toList = first.toList ++ continued rest := by
  show (rest.foldl (fun text part => text ++ ", " ++ part) first).toList = _
  induction rest generalizing first with
  | nil => simp [continued]
  | cons second rest inductionHypothesis =>
      rw [List.foldl_cons, inductionHypothesis]
      simp [continued]

/-- Each of the words can be told from each of the others in front of something else. -/
def Separate (left right : List String) : Prop :=
  ∀ word ∈ left, ∀ other ∈ right, ∀ wordRest otherRest, NoDigit wordRest → NoDigit otherRest →
    word.toList ++ wordRest = other.toList ++ otherRest → word = other ∧ wordRest = otherRest

theorem noDigit_continued {words : List String} {mark : Char} {rest : List Char}
    (notDigit : mark.isDigit = false) : NoDigit (continued words ++ mark :: rest) := by
  cases words with
  | nil => exact noDigit_cons notDigit
  | cons word words => exact noDigit_cons (by decide)

section Words

variable {left right : List String} {mark : Char} {leftRest rightRest : List Char}
  (notComma : mark ≠ ',') (notDigit : mark.isDigit = false)

include notComma notDigit

/-- The words end at the first mark that is no comma. -/
theorem continued_append_inj (separate : Separate left right)
    (equal : continued left ++ mark :: leftRest = continued right ++ mark :: rightRest) :
    left = right ∧ leftRest = rightRest := by
  induction left generalizing right with
  | nil =>
      cases right with
      | nil => exact ⟨rfl, List.tail_eq_of_cons_eq equal⟩
      | cons other right => exact absurd (List.head_eq_of_cons_eq equal) notComma
  | cons word left inductionHypothesis =>
      cases right with
      | nil => exact absurd (List.head_eq_of_cons_eq equal).symm notComma
      | cons other right =>
          have behind : word.toList ++ (continued left ++ mark :: leftRest) =
              other.toList ++ (continued right ++ mark :: rightRest) := by
            simpa [continued] using equal
          have first := separate word List.mem_cons_self other List.mem_cons_self _ _
            (noDigit_continued notDigit) (noDigit_continued notDigit) behind
          have later : Separate left right := fun one oneListed two twoListed =>
            separate one (List.mem_cons_of_mem _ oneListed) two (List.mem_cons_of_mem _ twoListed)
          have rest := inductionHypothesis later first.2
          rw [first.1, rest.1]
          exact ⟨rfl, rest.2⟩

/-- A list of words is known from its text, if none of them starts with the mark behind it. -/
theorem joined_append_inj (separate : Separate left right)
    (starts : ∀ word ∈ left ++ right, ∃ first rest, word.toList = first :: rest ∧ first ≠ mark)
    (equal : (joined ", " left).toList ++ mark :: leftRest =
      (joined ", " right).toList ++ mark :: rightRest) :
    left = right ∧ leftRest = rightRest := by
  cases left with
  | nil =>
      cases right with
      | nil => exact ⟨rfl, List.tail_eq_of_cons_eq equal⟩
      | cons other right =>
          obtain ⟨first, rest, word, apart⟩ := starts other List.mem_cons_self
          rw [toList_joined, word] at equal
          exact absurd (List.head_eq_of_cons_eq equal).symm apart
  | cons word left =>
      cases right with
      | nil =>
          obtain ⟨first, rest, spelled, apart⟩ := starts word List.mem_cons_self
          rw [toList_joined, spelled] at equal
          exact absurd (List.head_eq_of_cons_eq equal) apart
      | cons other right =>
          rw [toList_joined, toList_joined, List.append_assoc, List.append_assoc] at equal
          have first := separate word List.mem_cons_self other List.mem_cons_self _ _
            (noDigit_continued notDigit) (noDigit_continued notDigit) equal
          have later : Separate left right := fun one oneListed two twoListed =>
            separate one (List.mem_cons_of_mem _ oneListed) two (List.mem_cons_of_mem _ twoListed)
          have rest := continued_append_inj notComma notDigit later first.2
          rw [first.1, rest.1]
          exact ⟨rfl, rest.2⟩

end Words

/-- What stands behind the opening brace around words. -/
def body (words : List String) : List Char :=
  if words = [] then ['}'] else ' ' :: ((joined ", " words).toList ++ [' ', '}'])

theorem body_append_inj {left right : List String} {leftRest rightRest : List Char}
    (separate : Separate left right)
    (starts : ∀ word ∈ left ++ right, ∃ first rest, word.toList = first :: rest ∧ first ≠ ' ')
    (equal : body left ++ leftRest = body right ++ rightRest) :
    left = right ∧ leftRest = rightRest := by
  unfold body at equal
  by_cases leftEmpty : left = []
  · by_cases rightEmpty : right = []
    · rw [if_pos leftEmpty, if_pos rightEmpty] at equal
      exact ⟨leftEmpty.trans rightEmpty.symm, List.tail_eq_of_cons_eq equal⟩
    · rw [if_pos leftEmpty, if_neg rightEmpty] at equal
      exact absurd (List.head_eq_of_cons_eq equal) (by decide)
  · by_cases rightEmpty : right = []
    · rw [if_neg leftEmpty, if_pos rightEmpty] at equal
      exact absurd (List.head_eq_of_cons_eq equal) (by decide)
    · rw [if_neg leftEmpty, if_neg rightEmpty] at equal
      have words : (joined ", " left).toList ++ ' ' :: '}' :: leftRest =
          (joined ", " right).toList ++ ' ' :: '}' :: rightRest := by simpa using equal
      have known := joined_append_inj (by decide) (by decide) separate starts words
      exact ⟨known.1, List.tail_eq_of_cons_eq known.2⟩

end Text

namespace TypeTree

open Text

/-- No function stands inside the tree. -/
inductive Flat : TypeTree → Prop where
  | void : Flat .void
  | label : Flat .label
  | integer {bits : UInt32} : Flat (.integer bits)
  | array {element : TypeTree} {length : UInt32} (flat : Flat element) :
      Flat (.array element length)
  | struct {fields : List TypeTree} {packed : Bool} (flat : ∀ field ∈ fields, Flat field) :
      Flat (.struct fields packed)

/-- A flat tree, or a function over flat trees. -/
inductive Proper : TypeTree → Prop where
  | flat {tree : TypeTree} (flat : Flat tree) : Proper tree
  | function {result : TypeTree} {parameters : List TypeTree} {variadic : Bool}
      (returned : Flat result) (taken : ∀ parameter ∈ parameters, Flat parameter) :
      Proper (.function result parameters variadic)

theorem texts_eq_map (trees : List TypeTree) : texts trees = trees.map text := by
  induction trees with
  | nil => rfl
  | cons tree trees inductionHypothesis => rw [texts, inductionHypothesis, List.map_cons]

/-! ### Texts as characters -/

theorem toList_text_integer (bits : UInt32) :
    (integer bits).text.toList = 'i' :: Nat.toDigits 10 bits.toNat := by
  simp [text]

theorem toList_text_array (element : TypeTree) (length : UInt32) :
    (array element length).text.toList =
      '[' ::
        (Nat.toDigits 10 length.toNat ++ ' ' :: 'x' :: ' ' :: (element.text.toList ++ [']'])) := by
  simp [text]

theorem toList_text_struct (fields : List TypeTree) (packed : Bool) :
    (struct fields packed).text.toList =
      if packed then '<' :: '{' :: (body (fields.map text) ++ ['>'])
      else '{' :: body (fields.map text) := by
  rw [text, texts_eq_map]
  cases packed <;> cases fields <;> simp [structText, braced, body]

theorem toList_text_function (result : TypeTree) (parameters : List TypeTree) (variadic : Bool) :
    (function result parameters variadic).text.toList =
      result.text.toList ++ ' ' :: '(' ::
        ((joined ", " (parameters.map text ++ if variadic then ["..."] else [])).toList ++
          [')']) := by
  rw [text, texts_eq_map]
  simp

/-! ### The first character -/

/-- The character that the text of a tree starts with. -/
def mark : TypeTree → Char
  | .void => 'v'
  | .label => 'l'
  | .integer _ => 'i'
  | .array _ _ => '['
  | .struct _ packed => if packed then '<' else '{'
  | .function result _ _ => result.mark

theorem Flat.starts {tree : TypeTree} (flat : tree.Flat) :
    ∃ rest, tree.text.toList = tree.mark :: rest := by
  cases flat with
  | void => exact ⟨_, rfl⟩
  | label => exact ⟨_, rfl⟩
  | integer => exact ⟨_, toList_text_integer _⟩
  | array flat => exact ⟨_, toList_text_array _ _⟩
  | @struct fields packed flat =>
      rw [toList_text_struct]
      cases packed with
      | false => exact ⟨_, rfl⟩
      | true => exact ⟨_, rfl⟩

theorem Flat.mark_mem {tree : TypeTree} (flat : tree.Flat) :
    tree.mark ∈ ['v', 'l', 'i', '[', '{', '<'] := by
  cases flat with
  | @struct fields packed flat => cases packed <;> simp [mark]
  | _ => simp [mark]

theorem Flat.mark_eq {left right : TypeTree} (leftFlat : left.Flat) (rightFlat : right.Flat)
    {leftRest rightRest : List Char}
    (equal : left.text.toList ++ leftRest = right.text.toList ++ rightRest) :
    left.mark = right.mark := by
  obtain ⟨_, leftText⟩ := leftFlat.starts
  obtain ⟨_, rightText⟩ := rightFlat.starts
  rw [leftText, rightText] at equal
  exact List.head_eq_of_cons_eq equal

/-! ### Flat trees -/

theorem Flat.word_starts {trees : List TypeTree} (flat : ∀ tree ∈ trees, tree.Flat) {stop : Char}
    (other : stop ∉ ['v', 'l', 'i', '[', '{', '<']) :
    ∀ word ∈ trees.map text, ∃ first rest, word.toList = first :: rest ∧ first ≠ stop := by
  intro word listed
  obtain ⟨tree, member, rfl⟩ := List.mem_map.mp listed
  obtain ⟨rest, spelled⟩ := (flat tree member).starts
  refine ⟨tree.mark, rest, spelled, ?_⟩
  intro same
  exact other (same ▸ (flat tree member).mark_mem)

/-- Each tree of one list can be told from each of the other by the front of a text. -/
def ToldApart (left right : List TypeTree) : Prop :=
  ∀ one ∈ left, ∀ two ∈ right, ∀ oneRest twoRest, NoDigit oneRest → NoDigit twoRest →
    one.text.toList ++ oneRest = two.text.toList ++ twoRest → one = two ∧ oneRest = twoRest

theorem ToldApart.separate {left right : List TypeTree} (apart : ToldApart left right) :
    Separate (left.map text) (right.map text) := by
  intro word listed other otherListed wordRest otherRest clear otherClear equal
  obtain ⟨one, oneListed, rfl⟩ := List.mem_map.mp listed
  obtain ⟨two, twoListed, rfl⟩ := List.mem_map.mp otherListed
  have known := apart one oneListed two twoListed wordRest otherRest clear otherClear equal
  exact ⟨congrArg text known.1, known.2⟩

theorem ToldApart.of_map {left right : List TypeTree} (apart : ToldApart left right)
    (equal : left.map text = right.map text) : left = right := by
  induction left generalizing right with
  | nil => exact (List.map_eq_nil_iff.mp equal.symm).symm
  | cons one left inductionHypothesis =>
      cases right with
      | nil => cases equal
      | cons two right =>
          rw [List.map_cons, List.map_cons] at equal
          have texts : one.text.toList ++ [] = two.text.toList ++ [] := by
            rw [List.head_eq_of_cons_eq equal]
          have clear : NoDigit [] := by simp [NoDigit]
          have first := apart one List.mem_cons_self two List.mem_cons_self [] [] clear clear texts
          have later : ToldApart left right := fun one oneListed two twoListed =>
            apart one (List.mem_cons_of_mem _ oneListed) two (List.mem_cons_of_mem _ twoListed)
          rw [first.1, inductionHypothesis later (List.tail_eq_of_cons_eq equal)]

/-- The text of a flat tree can be read back from the front of a longer text. -/
theorem Flat.text_append_inj {left right : TypeTree} (leftFlat : left.Flat)
    (rightFlat : right.Flat) {leftRest rightRest : List Char} (leftClear : NoDigit leftRest)
    (rightClear : NoDigit rightRest)
    (equal : left.text.toList ++ leftRest = right.text.toList ++ rightRest) :
    left = right ∧ leftRest = rightRest := by
  have marks := leftFlat.mark_eq rightFlat equal
  induction leftFlat generalizing right leftRest rightRest with
  | void =>
      cases rightFlat with
      | void => exact ⟨rfl, List.append_cancel_left equal⟩
      | @struct fields packed => cases packed <;> cases marks
      | _ => cases marks
  | label =>
      cases rightFlat with
      | label => exact ⟨rfl, List.append_cancel_left equal⟩
      | @struct fields packed => cases packed <;> cases marks
      | _ => cases marks
  | @integer bits =>
      cases rightFlat with
      | @integer other =>
          rw [toList_text_integer, toList_text_integer] at equal
          have known := toDigits_append_inj leftClear rightClear (List.tail_eq_of_cons_eq equal)
          rw [UInt32.toNat_inj.mp known.1]
          exact ⟨rfl, known.2⟩
      | @struct fields packed => cases packed <;> cases marks
      | _ => cases marks
  | @array element length flat inductionHypothesis =>
      cases rightFlat with
      | @array other count otherFlat =>
          simp only [toList_text_array, List.cons_append, List.append_assoc, List.cons.injEq,
            true_and] at equal
          have counts := toDigits_append_inj (noDigit_cons (by decide)) (noDigit_cons (by decide))
            equal
          have elements := (List.cons.inj (List.cons.inj (List.cons.inj counts.2).2).2).2
          have known := inductionHypothesis otherFlat (noDigit_cons (by decide))
            (noDigit_cons (by decide)) elements (flat.mark_eq otherFlat elements)
          rw [UInt32.toNat_inj.mp counts.1, known.1]
          exact ⟨rfl, (List.cons.inj known.2).2⟩
      | @struct fields packed => cases packed <;> cases marks
      | _ => cases marks
  | @struct fields packed flat inductionHypothesis =>
      cases rightFlat with
      | @struct others otherPacked otherFlat =>
          have apart : ToldApart fields others := by
            intro field listed other otherListed rest otherRest clear otherClear same
            exact inductionHypothesis field listed (otherFlat other otherListed) clear otherClear
              same ((flat field listed).mark_eq (otherFlat other otherListed) same)
          have starts : ∀ word ∈ fields.map text ++ others.map text,
              ∃ first rest, word.toList = first :: rest ∧ first ≠ ' ' := by
            rw [← List.map_append]
            exact Flat.word_starts (List.forall_mem_append.mpr ⟨flat, otherFlat⟩) (by decide)
          have bodies : ∀ rest otherRest,
              body (fields.map text) ++ rest = body (others.map text) ++ otherRest →
                fields = others ∧ rest = otherRest := by
            intro rest otherRest same
            have known := body_append_inj apart.separate starts same
            exact ⟨apart.of_map known.1, known.2⟩
          cases packed <;> cases otherPacked
          · rw [toList_text_struct, toList_text_struct] at equal
            have known := bodies _ _ (List.tail_eq_of_cons_eq equal)
            rw [known.1]
            exact ⟨rfl, known.2⟩
          · cases marks
          · cases marks
          · simp only [toList_text_struct, if_true, List.cons_append, List.append_assoc,
              List.cons.injEq, true_and] at equal
            have known := bodies _ _ equal
            rw [known.1]
            exact ⟨rfl, (List.cons.inj known.2).2⟩
      | _ => cases packed <;> cases marks

theorem Flat.toldApart {left right : List TypeTree} (leftFlat : ∀ tree ∈ left, tree.Flat)
    (rightFlat : ∀ tree ∈ right, tree.Flat) : ToldApart left right :=
  fun one oneListed two twoListed _ _ clear otherClear equal =>
    (leftFlat one oneListed).text_append_inj (rightFlat two twoListed) clear otherClear equal

/-! ### Proper trees -/

/-- The words between the parentheses of a function's text. -/
def takenWords (parameters : List TypeTree) (variadic : Bool) : List String :=
  parameters.map text ++ if variadic then ["..."] else []

theorem takenWords_false (parameters : List TypeTree) :
    takenWords parameters false = parameters.map text :=
  List.append_nil _

/-- No flat tree reads like the mark for further arguments. -/
theorem Flat.ellipsis_ne {trees : List TypeTree} (flat : ∀ tree ∈ trees, tree.Flat) {word : String}
    (listed : word ∈ trees.map text) {rest ellipsisRest : List Char} :
    word.toList ++ rest ≠ "...".toList ++ ellipsisRest := by
  have other : '.' ∉ ['v', 'l', 'i', '[', '{', '<'] := by decide
  obtain ⟨first, others, spelled, apart⟩ := Flat.word_starts flat other word listed
  intro equal
  rw [spelled] at equal
  exact apart (List.head_eq_of_cons_eq equal)

section Taken

variable {left right : List TypeTree} {variadic otherVariadic : Bool}
  (leftFlat : ∀ tree ∈ left, tree.Flat) (rightFlat : ∀ tree ∈ right, tree.Flat)

theorem mem_takenWords {word : String} (listed : word ∈ takenWords left variadic) :
    word ∈ left.map text ∨ word = "..." := by
  rcases List.mem_append.mp listed with tree | ellipsis
  · exact .inl tree
  · cases variadic with
    | false => cases ellipsis
    | true => exact .inr (List.mem_singleton.mp ellipsis)

include leftFlat

theorem takenWords_starts :
    ∀ word ∈ takenWords left variadic, ∃ first rest, word.toList = first :: rest ∧ first ≠ ')' := by
  intro word listed
  rcases mem_takenWords listed with tree | rfl
  · exact Flat.word_starts leftFlat (by decide) word tree
  · exact ⟨'.', _, rfl, by decide⟩

include rightFlat

theorem takenWords_separate :
    Separate (takenWords left variadic) (takenWords right otherVariadic) := by
  intro word listed other otherListed wordRest otherRest clear otherClear equal
  rcases mem_takenWords listed with tree | rfl
  · rcases mem_takenWords otherListed with otherTree | rfl
    · exact (Flat.toldApart leftFlat rightFlat).separate word tree other otherTree _ _ clear
        otherClear equal
    · exact absurd equal (Flat.ellipsis_ne leftFlat tree)
  · rcases mem_takenWords otherListed with otherTree | rfl
    · exact absurd equal.symm (Flat.ellipsis_ne rightFlat otherTree)
    · exact ⟨rfl, List.append_cancel_left equal⟩

theorem takenWords_inj (equal : takenWords left variadic = takenWords right otherVariadic) :
    left = right ∧ variadic = otherVariadic := by
  have ellipsis : ∀ {trees : List TypeTree}, (∀ tree ∈ trees, tree.Flat) →
      "..." ∉ trees.map text := by
    intro trees flat listed
    have clash : "...".toList ++ [] ≠ "...".toList ++ [] := Flat.ellipsis_ne flat listed
    exact clash rfl
  cases variadic with
  | false =>
      rw [takenWords_false] at equal
      cases otherVariadic with
      | false =>
          rw [takenWords_false] at equal
          exact ⟨(Flat.toldApart leftFlat rightFlat).of_map equal, rfl⟩
      | true =>
          have listed : "..." ∈ left.map text := equal ▸ List.mem_concat_self
          exact absurd listed (ellipsis leftFlat)
  | true =>
      cases otherVariadic with
      | false =>
          rw [takenWords_false] at equal
          have listed : "..." ∈ right.map text := equal ▸ List.mem_concat_self
          exact absurd listed (ellipsis rightFlat)
      | true =>
          have texts := List.append_cancel_right equal
          exact ⟨(Flat.toldApart leftFlat rightFlat).of_map texts, rfl⟩

end Taken

/-- The text of a function has a blank behind its result, where the text of a flat tree ends. -/
theorem Flat.text_ne_function {tree result : TypeTree} (flat : tree.Flat) (returned : result.Flat)
    (parameters : List TypeTree) (variadic : Bool) :
    tree.text ≠ (function result parameters variadic).text := by
  intro equal
  have characters : tree.text.toList ++ [] = _ :=
    (List.append_nil _).trans ((congrArg String.toList equal).trans (toList_text_function _ _ _))
  have known := flat.text_append_inj returned (by simp [NoDigit]) (noDigit_cons (by decide))
    characters
  cases known.2

theorem Proper.text_injective {left right : TypeTree} (leftProper : left.Proper)
    (rightProper : right.Proper) (equal : left.text = right.text) : left = right := by
  cases leftProper with
  | flat leftFlat =>
      cases rightProper with
      | flat rightFlat =>
          have clear : NoDigit [] := by simp [NoDigit]
          have characters : left.text.toList ++ [] = right.text.toList ++ [] := by rw [equal]
          exact (leftFlat.text_append_inj rightFlat clear clear characters).1
      | function returned taken => exact absurd equal (leftFlat.text_ne_function returned _ _)
  | @function result parameters variadic returned taken =>
      cases rightProper with
      | flat rightFlat => exact absurd equal.symm (rightFlat.text_ne_function returned _ _)
      | @function other otherParameters otherVariadic otherReturned otherTaken =>
          have characters := congrArg String.toList equal
          rw [toList_text_function, toList_text_function] at characters
          have results := returned.text_append_inj otherReturned (noDigit_cons (by decide))
            (noDigit_cons (by decide)) characters
          have behind := (List.cons.inj (List.cons.inj results.2).2).2
          have starts : ∀ word ∈ takenWords parameters variadic ++
              takenWords otherParameters otherVariadic,
              ∃ first rest, word.toList = first :: rest ∧ first ≠ ')' :=
            List.forall_mem_append.mpr ⟨takenWords_starts taken, takenWords_starts otherTaken⟩
          have words := joined_append_inj (by decide) (by decide)
            (takenWords_separate taken otherTaken) starts behind
          have known := takenWords_inj taken otherTaken words.1
          rw [results.1, known.1, known.2]

end TypeTree

end TypedIR
