import Mathlib.Algebra.GroupWithZero.Nat
import Mathlib.Data.List.Basic
import TypedIR.Text.Lines

/-!
Contract: cutting a text into lines, as against joining texts by line feeds.

Owns:
- texts of one line, and texts that end in a character of their own, one that belongs
  to no line end;
- the number of lines of such a text: one more than its line feeds;
- joined texts that each end so are cut one by one, and into themselves exactly if
  each has one line.

Does not own: texts that end in a line end, of which a line may be lost.
-/

namespace TypedIR.Text

/-- The text has no line feed. -/
def OneLine (text : String) : Prop := '\n' ∉ text.toList

instance (text : String) : Decidable (OneLine text) := inferInstanceAs (Decidable (¬ _))

/-- The text has a last character, which is part of no line end. -/
def Ended (text : String) : Prop :=
  ∃ last ∈ text.toList.getLast?, last ≠ '\n' ∧ last ≠ '\r'

-- Named, as the search may find the one that tries all characters.
instance (text : String) : Decidable (Ended text) :=
  Option.decidableExistsMem text.toList.getLast?

def lineFeeds (text : String) : Nat := text.toList.count '\n'

theorem oneLine_append {front back : String} :
    OneLine (front ++ back) ↔ OneLine front ∧ OneLine back := by
  simp [OneLine]

theorem OneLine.append {front back : String} (first : OneLine front) (second : OneLine back) :
    OneLine (front ++ back) :=
  oneLine_append.mpr ⟨first, second⟩

theorem lineFeeds_eq_zero {text : String} : lineFeeds text = 0 ↔ OneLine text :=
  List.count_eq_zero

theorem Ended.shape {text : String} (ended : Ended text) :
    ∃ front last, text.toList = front ++ [last] ∧ last ≠ '\n' ∧ last ≠ '\r' := by
  obtain ⟨last, same, noFeed, noReturn⟩ := ended
  obtain ⟨front, shape⟩ := List.getLast?_eq_some_iff.mp same
  exact ⟨front, last, shape, noFeed, noReturn⟩

theorem Ended.append {back : String} (front : String) (ended : Ended back) :
    Ended (front ++ back) := by
  obtain ⟨earlier, last, same, apart⟩ := ended.shape
  refine ⟨last, List.getLast?_eq_some_iff.mpr ⟨front.toList ++ earlier, ?_⟩, apart⟩
  rw [String.toList_append, same, List.append_assoc]

/-! ### Numerals -/

theorem isDigit_of_mem_toString {number : Nat} {character : Char}
    (member : character ∈ (toString number).toList) : character.isDigit = true := by
  rw [Nat.toString_eq_ofList_toDigits, String.toList_ofList] at member
  exact Nat.isDigit_of_mem_toDigits (by omega) (by omega) member

theorem oneLine_toString (number : Nat) : OneLine (toString number) := by
  intro member
  cases isDigit_of_mem_toString member

theorem ended_toString (number : Nat) : Ended (toString number) := by
  have nonempty : (toString number).toList ≠ [] := by
    rw [Nat.toString_eq_ofList_toDigits, String.toList_ofList]
    exact Nat.toDigits_ne_nil
  have digit := isDigit_of_mem_toString (List.getLast_mem nonempty)
  refine ⟨_, List.getLast?_eq_some_getLast nonempty, ?_, ?_⟩
  all_goals
    intro same
    rw [same] at digit
    cases digit

/-! ### Lines -/

theorem cutLines_cons {current rest : List Char} {character : Char} (inside : character ≠ '\n') :
    cutLines current (character :: rest) = cutLines (character :: current) rest := by
  rw [cutLines]
  exact fun same => inside same

/-- Behind a line feed, cutting starts again. -/
theorem cutLines_append (current front rest : List Char) :
    cutLines current (front ++ '\n' :: rest) =
      cutLines current (front ++ ['\n']) ++ cutLines [] rest := by
  induction front generalizing current with
  | nil => simp [cutLines]
  | cons character front inductionHypothesis =>
      by_cases feed : character = '\n'
      · subst feed
        simp only [List.cons_append, cutLines, inductionHypothesis]
      · rw [List.cons_append, List.cons_append, cutLines_cons feed, cutLines_cons feed,
          inductionHypothesis]

/-- Behind a character of a line, a line feed at the end of the text makes no difference. -/
theorem cutLines_ended {current front : List Char} {last : Char} (noFeed : last ≠ '\n')
    (noReturn : last ≠ '\r') :
    cutLines current (front ++ [last, '\n']) = cutLines current (front ++ [last]) := by
  induction front generalizing current with
  | nil =>
      have kept : dropReturn (last :: current) = last :: current := by
        rw [dropReturn]
        exact fun _ same => noReturn (List.head_eq_of_cons_eq same)
      rw [List.nil_append, List.nil_append, cutLines_cons noFeed, cutLines_cons noFeed]
      simp [cutLines, kept]
  | cons character front inductionHypothesis =>
      by_cases feed : character = '\n'
      · subst feed
        simp only [List.cons_append, cutLines, inductionHypothesis]
      · rw [List.cons_append, List.cons_append, cutLines_cons feed, cutLines_cons feed,
          inductionHypothesis]

theorem length_cutLines {current front : List Char} {last : Char} (noFeed : last ≠ '\n') :
    (cutLines current (front ++ [last])).length = front.count '\n' + 1 := by
  induction front generalizing current with
  | nil =>
      rw [List.nil_append, cutLines_cons noFeed]
      simp [cutLines]
  | cons character front inductionHypothesis =>
      by_cases feed : character = '\n'
      · subst feed
        rw [List.cons_append, cutLines, List.length_cons, inductionHypothesis,
          List.count_cons_self]
      · rw [List.cons_append, cutLines_cons feed, inductionHypothesis, List.count_cons_of_ne feed]

theorem cutLines_oneLine {current characters : List Char} (one : '\n' ∉ characters) :
    cutLines current characters = cutLines (characters.reverse ++ current) [] := by
  induction characters generalizing current with
  | nil => rfl
  | cons character rest inductionHypothesis =>
      obtain ⟨inside, later⟩ := not_or.mp (mt List.mem_cons.mpr one)
      rw [cutLines_cons (Ne.symm inside), inductionHypothesis later]
      simp

/-- A text has one line more than it has line feeds. -/
theorem length_lines {text : String} (ended : Ended text) :
    (lines text).length = lineFeeds text + 1 := by
  obtain ⟨front, last, same, noFeed, _⟩ := ended.shape
  rw [lines, lineFeeds, same, List.length_map, length_cutLines noFeed, List.count_append,
    List.count_singleton, beq_false_of_ne noFeed]
  rfl

theorem lines_eq_singleton {text : String} (ended : Ended text) :
    lines text = [text] ↔ OneLine text := by
  constructor
  · intro whole
    have counted := length_lines ended
    rw [whole, List.length_singleton] at counted
    exact lineFeeds_eq_zero.mp (by omega)
  · intro one
    obtain ⟨front, last, same, _⟩ := ended.shape
    have nonempty : text.toList.reverse.isEmpty ≠ true := by simp [same]
    rw [lines, cutLines_oneLine one, List.append_nil, cutLines, if_neg nonempty,
      List.reverse_reverse, List.map_singleton, String.ofList_toList]

/-! ### Joined texts -/

theorem joined_cons_cons (separator first second : String) (rest : List String) :
    joined separator (first :: second :: rest) =
      first ++ separator ++ joined separator (second :: rest) := by
  have moved : ∀ (front text : String) (rest : List String),
      rest.foldl (fun text part => text ++ separator ++ part) (front ++ text) =
        front ++ rest.foldl (fun text part => text ++ separator ++ part) text := by
    intro front text rest
    induction rest generalizing text with
    | nil => rfl
    | cons part rest inductionHypothesis =>
        rw [List.foldl_cons, String.append_assoc, String.append_assoc, inductionHypothesis,
          List.foldl_cons, String.append_assoc]
  exact moved (first ++ separator) second rest

/-- Joined by line feeds, texts that end in characters of their own are cut one by one. -/
theorem lines_joined {texts : List String} (ended : ∀ text ∈ texts, Ended text) :
    lines (joined "\n" texts) = texts.flatMap lines := by
  cases texts with
  | nil => rfl
  | cons first rest =>
      induction rest generalizing first with
      | nil => simp [joined]
      | cons second rest inductionHypothesis =>
          obtain ⟨front, last, same, noFeed, noReturn⟩ := (ended first List.mem_cons_self).shape
          have later := inductionHypothesis second
            fun text member => ended text (List.mem_cons_of_mem _ member)
          rw [joined_cons_cons, List.flatMap_cons, ← later]
          simp only [lines, String.toList_append, same]
          have apart := cutLines_append [] (front ++ [last])
            (joined "\n" (second :: rest)).toList
          rw [List.append_assoc front [last] ['\n']] at apart
          rw [← List.map_append, ← cutLines_ended noFeed noReturn]
          exact congrArg (List.map String.ofList) (by simpa using apart)

/-- There are as many lines as texts, and one for each line feed in them. -/
theorem length_flatMap_lines {texts : List String} (ended : ∀ text ∈ texts, Ended text) :
    (texts.flatMap lines).length = texts.length + (texts.map lineFeeds).sum := by
  induction texts with
  | nil => rfl
  | cons first rest inductionHypothesis =>
      rw [List.flatMap_cons, List.length_append, length_lines (ended first List.mem_cons_self),
        inductionHypothesis fun text member => ended text (List.mem_cons_of_mem _ member),
        List.length_cons, List.map_cons, List.sum_cons]
      omega

/-- The texts come back exactly if each of them is one line. -/
theorem flatMap_lines_eq {texts : List String} (ended : ∀ text ∈ texts, Ended text) :
    texts.flatMap lines = texts ↔ ∀ text ∈ texts, OneLine text := by
  constructor
  · intro whole text member
    have counted := length_flatMap_lines ended
    rw [whole] at counted
    have none : (texts.map lineFeeds).sum = 0 := by omega
    exact lineFeeds_eq_zero.mp
      (List.sum_eq_zero_iff_forall_eq_nat.mp none _ (List.mem_map_of_mem member))
  · intro oneLine
    have each : ∀ text ∈ texts, lines text = [text] := fun text member =>
      (lines_eq_singleton (ended text member)).mpr (oneLine text member)
    rw [List.flatMap_congr each, List.flatMap_singleton']

end TypedIR.Text
