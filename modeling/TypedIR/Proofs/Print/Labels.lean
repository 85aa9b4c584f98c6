import Mathlib.Data.List.Range
import Mathlib.Data.List.Nodup
import Mathlib.Data.List.Perm.Subperm
import Mathlib.Logic.Function.Basic
import TypedIR.Label

/-!
Contract: the names that are made by looking for a free one.

Owns:
- numbers as text, which tell all numbers apart, alone and behind a name;
- the search for a free number: it looks at no more candidates than it may, and finds the least
  number that is free;
- the name of a further block, and how far the search for its number goes;
- the names of a list of locals, one after the other: what each is given, and that all are
  different.

A search can always end: the names taken are too few for all candidates.
-/

namespace TypedIR.Label

open Function (Injective)

variable {taken : List String} {text : Nat → String} {start number : Nat} {name wanted : String}

/-! ### Numbers as text -/

theorem toString_injective : Injective (toString : Nat → String) := by
  intro left right equal
  have digits : Nat.toDigits 10 left = Nat.toDigits 10 right := by
    simpa only [Nat.toString_eq_ofList_toDigits, String.toList_ofList] using
      congrArg String.toList equal
  rw [← @Nat.ofDigitChars_ten_toDigits left, digits, Nat.ofDigitChars_ten_toDigits]

theorem numbered_injective (name : String) :
    Injective fun number : Nat => name ++ toString number := by
  intro left right equal
  have lists : name.toList ++ (toString left).toList = name.toList ++ (toString right).toList := by
    simpa only [String.toList_append] using congrArg String.toList equal
  exact toString_injective (String.toList_injective (List.append_cancel_left lists))

/-! ### The search for a number -/

/-- The least number from a start on whose text is free. -/
structure LeastFree (taken : List String) (text : Nat → String) (start number : Nat) : Prop where
  start_le : start ≤ number
  free : text number ∉ taken
  least : ∀ other, start ≤ other → other < number → text other ∈ taken

/-- Numbers in a row that are all taken are no more than the names taken. -/
theorem length_of_taken (injective : Injective text)
    (occupied : ∀ other, start ≤ other → other < start + number → text other ∈ taken) :
    number ≤ taken.length := by
  have different : ((List.range' start number).map text).Nodup :=
    List.Nodup.map injective List.nodup_range'
  have inside : (List.range' start number).map text ⊆ taken := by
    intro candidate listed
    obtain ⟨other, among, rfl⟩ := List.mem_map.mp listed
    obtain ⟨above, below⟩ := List.mem_range'_1.mp among
    exact occupied other above below
  have bound := (List.Nodup.subperm different inside).length_le
  rwa [List.length_map, List.length_range'] at bound

/-- A search passes over no more candidates than there are names taken. -/
theorem LeastFree.le (search : LeastFree taken text start number) (injective : Injective text) :
    number ≤ start + taken.length := by
  obtain ⟨steps, rfl⟩ := Nat.exists_eq_add_of_le search.start_le
  exact Nat.add_le_add_left (length_of_taken injective search.least) start

/-- Within its budget a search passes only over numbers that are taken. -/
theorem firstFree_passes (taken : List String) (text : Nat → String) (budget start : Nat) :
    start ≤ firstFree taken text budget start ∧
      (∀ other, start ≤ other → other < firstFree taken text budget start → text other ∈ taken) ∧
      (text (firstFree taken text budget start) ∉ taken ∨
        firstFree taken text budget start = start + budget) := by
  induction budget generalizing start with
  | zero =>
      refine ⟨Nat.le_refl _, fun other above below => ?_, .inr rfl⟩
      exact absurd below (Nat.not_lt_of_le above)
  | succ budget inductionHypothesis =>
      rw [firstFree]
      by_cases occupied : text start ∈ taken
      · rw [if_pos occupied]
        obtain ⟨later, passed, ended⟩ := inductionHypothesis (start + 1)
        refine ⟨Nat.le_of_succ_le later, fun other above below => ?_, ended.imp_right ?_⟩
        · rcases Nat.eq_or_lt_of_le above with rfl | behind
          · exact occupied
          · exact passed other behind below
        · intro last
          rw [last, Nat.add_right_comm, Nat.add_assoc]
      · rw [if_neg occupied]
        refine ⟨Nat.le_refl _, fun other above below => ?_, .inl occupied⟩
        exact absurd below (Nat.not_lt_of_le above)

/-- One candidate more than there are names taken is enough. -/
theorem firstFree_least (injective : Injective text) (taken : List String) (start : Nat) :
    LeastFree taken text start (firstFree taken text (taken.length + 1) start) := by
  obtain ⟨later, passed, free | last⟩ := firstFree_passes taken text (taken.length + 1) start
  · exact ⟨later, free, passed⟩
  · have bound : taken.length + 1 ≤ taken.length :=
      length_of_taken injective fun other above below => passed other above (last ▸ below)
    exact absurd bound (Nat.not_succ_le_self _)

/-- Looking at more candidates than up to the least free number finds the same one. -/
theorem LeastFree.firstFree_eq (search : LeastFree taken text start number) {budget : Nat}
    (reached : number ≤ start + budget) : firstFree taken text budget start = number := by
  induction budget generalizing start with
  | zero => exact Nat.le_antisymm search.start_le reached
  | succ budget inductionHypothesis =>
      rw [firstFree]
      rcases Nat.eq_or_lt_of_le search.start_le with rfl | later
      · rw [if_neg search.free]
      · rw [if_pos (search.least start (Nat.le_refl _) later)]
        refine inductionHypothesis ⟨later, search.free, fun other above => ?_⟩ (by omega)
        exact search.least other (Nat.le_of_succ_le above)

/-! ### The name given to a block -/

/-- The names that are tried for a block, one after the other. -/
def candidate (wanted : String) : Nat → String
  | 0 => wanted
  | number + 1 => wanted ++ toString (number + 1)

/-- A number makes a name longer, so that no candidate comes twice. -/
theorem candidate_injective (wanted : String) : Injective (candidate wanted) := by
  have longer : ∀ number : Nat, wanted ++ toString number ≠ wanted := by
    intro number same
    have lists : wanted.toList ++ (toString number).toList = wanted.toList := by
      simpa only [String.toList_append] using congrArg String.toList same
    have nothing := List.append_right_eq_self.mp lists
    exact Nat.repr_ne_empty (String.toList_injective nothing)
  intro left right equal
  cases left with
  | zero =>
      cases right with
      | zero => rfl
      | succ right => exact absurd equal.symm (longer _)
  | succ left =>
      cases right with
      | zero => exact absurd equal (longer _)
      | succ right => exact numbered_injective wanted equal

/-- Behind a name that is taken itself, fewer numbers can be taken than there are names. -/
theorem LeastFree.le_length
    (search : LeastFree taken (fun number => wanted ++ toString number) 1 number)
    (occupied : wanted ∈ taken) : number ≤ taken.length := by
  have passed : ∀ other, 0 ≤ other → other < 0 + number → candidate wanted other ∈ taken := by
    intro other _ below
    rw [Nat.zero_add] at below
    cases other with
    | zero => exact occupied
    | succ other => exact search.least (other + 1) (Nat.succ_pos _) below
  exact length_of_taken (candidate_injective wanted) passed

/-- What a block is called when names are taken: as it wants if that is empty or free, else with
the least number from one behind that. -/
structure GivenBlock (taken : List String) (wanted name : String) : Prop where
  own : wanted = "" ∨ wanted ∉ taken → name = wanted
  numbered : wanted ≠ "" → wanted ∈ taken → ∃ number,
    name = wanted ++ toString number ∧
    LeastFree taken (fun number => wanted ++ toString number) 1 number ∧
    number ≤ taken.length ∧
    -- However many more candidates a search may look at, it ends with this one.
    ∀ budget, taken.length ≤ budget →
      firstFree taken (fun number => wanted ++ toString number) budget 1 = number

theorem GivenBlock.free (given : GivenBlock taken wanted name) (proper : name ≠ "") :
    name ∉ taken := by
  by_cases own : wanted = "" ∨ wanted ∉ taken
  · obtain rfl := given.own own
    exact own.resolve_left proper
  · obtain ⟨wantedProper, occupied⟩ := not_or.mp own
    obtain ⟨number, rfl, search, _⟩ := given.numbered wantedProper (not_not.mp occupied)
    exact search.free

theorem ofBlock_given (taken : List String) (wanted : String) :
    GivenBlock taken wanted (ofBlock taken wanted) := by
  unfold ofBlock unique
  constructor
  · rintro (rfl | free)
    · rw [if_pos rfl]
    · by_cases anonymous : wanted = ""
      · rw [if_pos anonymous, anonymous]
      · rw [if_neg anonymous, if_neg free]
  · intro proper occupied
    rw [if_neg proper, if_pos occupied]
    have search := firstFree_least (numbered_injective wanted) taken 1
    have bound := search.le_length occupied
    refine ⟨_, rfl, search, bound, fun budget enough => ?_⟩
    exact search.firstFree_eq (Nat.le_trans (Nat.le_trans bound enough) (Nat.le_add_left _ _))

/-! ### The name given to a local -/

/-- What a local is called when names are taken: as it wants if that is free, else with the least
number from one behind that, and by the least number from zero if it wants no name. -/
inductive Given (taken : List String) : String → String → Prop where
  | own {wanted : String} : wanted ≠ "" → wanted ∉ taken → Given taken wanted wanted
  | numbered {wanted : String} {number : Nat} : wanted ≠ "" → wanted ∈ taken →
      LeastFree taken (fun number => wanted ++ toString number) 1 number →
      Given taken wanted (wanted ++ toString number)
  | anonymous {number : Nat} : LeastFree taken toString 0 number →
      Given taken "" (toString number)

theorem Given.free (given : Given taken wanted name) : name ∉ taken := by
  cases given with
  | own _ free => exact free
  | numbered _ _ search => exact search.free
  | anonymous search => exact search.free

/-- A local that wants a name nobody has is called as it wants. -/
theorem Given.eq_wanted (given : Given taken wanted name) (proper : wanted ≠ "")
    (free : wanted ∉ taken) : name = wanted := by
  cases given with
  | own => rfl
  | numbered _ occupied => exact absurd occupied free
  | anonymous => exact absurd rfl proper

/-- A name is the wanted one or has a number behind that, at most one more than names are taken. -/
theorem Given.bounded (given : Given taken wanted name) :
    name = wanted ∨ ∃ number ≤ taken.length + 1, name = wanted ++ toString number := by
  cases given with
  | own => exact .inl rfl
  | @numbered _ number _ _ search =>
      have bound := search.le (numbered_injective wanted)
      exact .inr ⟨number, Nat.add_comm 1 _ ▸ bound, rfl⟩
  | @anonymous number search =>
      have bound := search.le toString_injective
      rw [Nat.zero_add] at bound
      exact .inr ⟨number, Nat.le_succ_of_le bound, String.empty_append.symm⟩

theorem LeastFree.congr {other : List String} (same : ∀ name, name ∈ taken ↔ name ∈ other)
    (search : LeastFree taken text start number) : LeastFree other text start number where
  start_le := search.start_le
  free := fun occupied => search.free ((same _).mpr occupied)
  least := fun candidate above below => (same _).mp (search.least candidate above below)

theorem Given.congr {other : List String} (same : ∀ name, name ∈ taken ↔ name ∈ other)
    (given : Given taken wanted name) : Given other wanted name := by
  cases given with
  | own proper free => exact .own proper fun occupied => free ((same _).mpr occupied)
  | numbered proper occupied search =>
      exact .numbered proper ((same _).mp occupied) (search.congr same)
  | anonymous search => exact .anonymous (search.congr same)

theorem unique_given (proper : wanted ≠ "") : Given taken wanted (unique taken wanted) := by
  unfold unique
  by_cases occupied : wanted ∈ taken
  · rw [if_pos occupied]
    exact .numbered proper occupied (firstFree_least (numbered_injective wanted) taken 1)
  · rw [if_neg occupied]
    exact .own proper occupied

/-- Where all numbers before the next one are taken, the search from there finds the least one
from zero. -/
theorem anonymous_given {next : Nat} (passed : ∀ other, other < next → toString other ∈ taken) :
    Given taken "" (toString (firstFree taken toString (taken.length + 1) next)) := by
  have search := firstFree_least toString_injective taken next
  refine .anonymous ⟨Nat.zero_le _, search.free, fun other _ below => ?_⟩
  rcases Nat.lt_or_ge other next with before | behind
  · exact passed other before
  · exact search.least other behind below

/-! ### The names of all locals -/

/-- Each name is given while those before it are taken. -/
inductive AllGiven : List String → List String → List String → Prop where
  | nil {taken : List String} : AllGiven taken [] []
  | cons {taken wanteds names : List String} {wanted name : String} : Given taken wanted name →
      AllGiven (taken ++ [name]) wanteds names → AllGiven taken (wanted :: wanteds) (name :: names)

theorem AllGiven.congr {other wanteds names : List String}
    (same : ∀ name, name ∈ taken ↔ name ∈ other) (given : AllGiven taken wanteds names) :
    AllGiven other wanteds names := by
  induction given generalizing other with
  | nil => exact .nil
  | cons first _ inductionHypothesis =>
      refine .cons (first.congr same) (inductionHypothesis fun name => ?_)
      rw [List.mem_append, List.mem_append, same]

theorem assignFrom_given {next : Nat} (wanteds : List String)
    (passed : ∀ other, other < next → toString other ∈ taken) :
    AllGiven taken wanteds (assignFrom taken next wanteds) := by
  have front : ∀ (taken : List String) (name other : String),
      other ∈ name :: taken ↔ other ∈ taken ++ [name] := by
    intro taken name other
    rw [List.mem_cons, List.mem_append, List.mem_singleton, or_comm]
  induction wanteds generalizing taken next with
  | nil => exact .nil
  | cons wanted rest inductionHypothesis =>
      rw [assignFrom]
      by_cases anonymous : wanted = ""
      · rw [if_pos anonymous, anonymous]
        have given := anonymous_given passed
        refine .cons given ((inductionHypothesis fun other below => ?_).congr (front _ _))
        -- All numbers up to the one found are taken from here on.
        have search := firstFree_least toString_injective taken next
        rcases Nat.eq_or_lt_of_le (Nat.le_of_lt_succ below) with rfl | before
        · exact List.mem_cons_self
        · refine List.mem_cons_of_mem _ ?_
          rcases Nat.lt_or_ge other next with early | late
          · exact passed other early
          · exact search.least other late before
      · rw [if_neg anonymous]
        refine .cons (unique_given anonymous) ((inductionHypothesis fun other below => ?_).congr
          (front _ _))
        exact List.mem_cons_of_mem _ (passed other below)

theorem assign_given (wanteds : List String) : AllGiven [] wanteds (assign wanteds) :=
  assignFrom_given wanteds fun _ below => absurd below (Nat.not_lt_zero _)

/-- All names are different, and none of them was taken before. -/
theorem AllGiven.nodup {wanteds names : List String} (given : AllGiven taken wanteds names) :
    names.Nodup ∧ ∀ name ∈ names, name ∉ taken := by
  induction given with
  | nil => exact ⟨List.nodup_nil, fun _ listed => absurd listed List.not_mem_nil⟩
  | cons first _ inductionHypothesis =>
      obtain ⟨different, fresh⟩ := inductionHypothesis
      refine ⟨List.nodup_cons.mpr ⟨fun again => ?_, different⟩, fun name listed => ?_⟩
      · exact fresh _ again (List.mem_append_right _ List.mem_cons_self)
      · rcases List.mem_cons.mp listed with rfl | later
        · exact first.free
        · exact fun occupied => fresh name later (List.mem_append_left _ occupied)

theorem AllGiven.length_eq {wanteds names : List String} (given : AllGiven taken wanteds names) :
    names.length = wanteds.length := by
  induction given with
  | nil => rfl
  | cons _ _ inductionHypothesis =>
      rw [List.length_cons, List.length_cons, inductionHypothesis]

/-- The name of each local, given while the names of those before it are taken. -/
theorem AllGiven.given_at {wanteds names : List String} (given : AllGiven taken wanteds names)
    {position : Nat} (found : wanteds[position]? = some wanted) :
    ∃ name, names[position]? = some name ∧ Given (taken ++ names.take position) wanted name := by
  induction given generalizing position with
  | nil => cases found
  | @cons _ _ _ _ name first _ inductionHypothesis =>
      cases position with
      | zero =>
          obtain rfl := Option.some.inj found
          exact ⟨name, rfl, by rwa [List.take_zero, List.append_nil]⟩
      | succ position =>
          obtain ⟨other, later, otherGiven⟩ := inductionHypothesis found
          refine ⟨other, later, ?_⟩
          rwa [List.take_succ_cons, List.append_cons]

end TypedIR.Label
