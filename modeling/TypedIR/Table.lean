/-!
Contract: append-only tables whose entries can be released.

Owns:
- slots that are handed out in order and never handed out again;
- look-up, which finds an entry until it is released.

The view of a table is `get?` together with `size`; the lemmas say what each
operation does to both, for one entry or for several.
-/

namespace TypedIR

structure Table (α : Type) where
  /-- A released entry leaves an empty slot behind. -/
  slots : Array (Option α)
deriving DecidableEq, Repr

namespace Table

variable {α β : Type}

def empty : Table α := ⟨#[]⟩

/-- The number of slots, released ones included. -/
def size (table : Table α) : Nat := table.slots.size

def get? (table : Table α) (index : Nat) : Option α := table.slots[index]?.join

def push (table : Table α) (entry : α) : Table α := ⟨table.slots.push (some entry)⟩

/-- Appends entries in order. -/
def pushAll (table : Table α) : List α → Table α
  | [] => table
  | entry :: entries => (table.push entry).pushAll entries

def release (table : Table α) (index : Nat) : Table α :=
  ⟨table.slots.setIfInBounds index none⟩

def releaseAll (table : Table α) (indices : List Nat) : Table α :=
  indices.foldl release table

/-- The table with its entries seen another way. -/
def map (view : α → β) (table : Table α) : Table β := ⟨table.slots.map (Option.map view)⟩

/-- Changes the entry at an index, if there is one. -/
def modify (table : Table α) (index : Nat) (change : α → α) : Table α :=
  ⟨table.slots.modify index (Option.map change)⟩

@[simp] theorem size_push (table : Table α) (entry : α) :
    (table.push entry).size = table.size + 1 := by
  simp [size, push]

@[simp] theorem size_release (table : Table α) (index : Nat) :
    (table.release index).size = table.size := by
  simp [size, release]

@[simp] theorem size_modify (table : Table α) (index : Nat) (change : α → α) :
    (table.modify index change).size = table.size := by
  simp [size, modify]

@[simp] theorem get?_empty (index : Nat) : (empty : Table α).get? index = none := by
  simp [get?, empty]

theorem get?_eq_none_of_size_le {table : Table α} {index : Nat} (large : table.size ≤ index) :
    table.get? index = none := by
  simp [get?, Array.getElem?_eq_none large]

theorem lt_size_of_get? {table : Table α} {index : Nat} {entry : α}
    (found : table.get? index = some entry) : index < table.size := by
  refine Decidable.byContradiction fun large => ?_
  rw [get?_eq_none_of_size_le (Nat.le_of_not_lt large)] at found
  cases found

theorem get?_push (table : Table α) (entry : α) (index : Nat) :
    (table.push entry).get? index = if index = table.size then some entry else table.get? index := by
  by_cases last : index = table.slots.size <;> simp [get?, push, size, Array.getElem?_push, last]

theorem get?_release (table : Table α) (released index : Nat) :
    (table.release released).get? index = if index = released then none else table.get? index := by
  simp only [get?, release, Array.getElem?_setIfInBounds]
  by_cases same : released = index
  · subst same
    by_cases inside : released < table.slots.size <;> simp [inside]
  · simp [same, Ne.symm same]

theorem get?_modify (table : Table α) (changed index : Nat) (change : α → α) :
    (table.modify changed change).get? index =
      if index = changed then (table.get? index).map change else table.get? index := by
  simp only [get?, modify, Array.getElem?_modify]
  by_cases same : changed = index
  · subst same
    cases table.slots[changed]? with
    | none => simp
    | some slot => cases slot <;> simp
  · simp [same, Ne.symm same]

/-! ### Several entries -/

@[simp] theorem size_pushAll (table : Table α) (entries : List α) :
    (table.pushAll entries).size = table.size + entries.length := by
  induction entries generalizing table with
  | nil => rfl
  | cons entry entries inductionHypothesis =>
      rw [pushAll, inductionHypothesis, size_push, List.length_cons]
      omega

/-- New entries stand behind all slots that were there. -/
theorem get?_pushAll (table : Table α) (entries : List α) (index : Nat) :
    (table.pushAll entries).get? index =
      if index < table.size then table.get? index else entries[index - table.size]? := by
  induction entries generalizing table with
  | nil =>
      rw [pushAll]
      by_cases inside : index < table.size
      · rw [if_pos inside]
      · rw [if_neg inside, get?_eq_none_of_size_le (Nat.le_of_not_lt inside)]
        rfl
  | cons entry entries inductionHypothesis =>
      rw [pushAll, inductionHypothesis, size_push, get?_push]
      by_cases last : index = table.size
      · rw [if_pos (by omega), if_pos last, if_neg (by omega), last, Nat.sub_self]
        rfl
      · rw [if_neg last]
        by_cases inside : index < table.size
        · rw [if_pos (by omega), if_pos inside]
        · rw [if_neg (by omega), if_neg inside]
          have shifted : index - table.size = index - (table.size + 1) + 1 := by omega
          rw [shifted, List.getElem?_cons_succ]

@[simp] theorem size_releaseAll (table : Table α) (released : List Nat) :
    (table.releaseAll released).size = table.size := by
  induction released generalizing table with
  | nil => rfl
  | cons index rest inductionHypothesis =>
      rw [releaseAll, List.foldl_cons]
      exact (inductionHypothesis _).trans (size_release table index)

theorem releaseAll_append (table : Table α) (first second : List Nat) :
    table.releaseAll (first ++ second) = (table.releaseAll first).releaseAll second :=
  List.foldl_append

theorem get?_releaseAll (table : Table α) (released : List Nat) (index : Nat) :
    (table.releaseAll released).get? index =
      if index ∈ released then none else table.get? index := by
  induction released generalizing table with
  | nil => simp [releaseAll]
  | cons first rest inductionHypothesis =>
      have unfolded :
          table.releaseAll (first :: rest) = (table.release first).releaseAll rest := rfl
      rw [unfolded, inductionHypothesis, get?_release]
      by_cases later : index ∈ rest
      · simp [later]
      · by_cases same : index = first <;> simp [later, same]

/-! ### Entries seen another way -/

theorem get?_map (view : α → β) (table : Table α) (index : Nat) :
    (table.map view).get? index = (table.get? index).map view := by
  simp only [get?, map, Array.getElem?_map]
  cases table.slots[index]? <;> rfl

@[simp] theorem size_map (view : α → β) (table : Table α) : (table.map view).size = table.size := by
  simp [size, map]

theorem map_push (view : α → β) (table : Table α) (entry : α) :
    (table.push entry).map view = (table.map view).push (view entry) := by
  simp [map, push]

theorem map_pushAll (view : α → β) (table : Table α) (entries : List α) :
    (table.pushAll entries).map view = (table.map view).pushAll (entries.map view) := by
  induction entries generalizing table with
  | nil => rfl
  | cons entry entries inductionHypothesis =>
      rw [pushAll, inductionHypothesis, map_push]
      rfl

theorem map_release (view : α → β) (table : Table α) (index : Nat) :
    (table.release index).map view = (table.map view).release index := by
  simp [map, release, Array.map_setIfInBounds]

theorem map_releaseAll (view : α → β) (table : Table α) (released : List Nat) :
    (table.releaseAll released).map view = (table.map view).releaseAll released := by
  induction released generalizing table with
  | nil => rfl
  | cons first rest inductionHypothesis =>
      have unfolded :
          table.releaseAll (first :: rest) = (table.release first).releaseAll rest := rfl
      rw [unfolded, inductionHypothesis, map_release]
      rfl

/-- An array changed at one place and then seen another way. -/
theorem array_map_modify {view : α → β} {change : α → α} {viewed : β → β}
    (same : ∀ entry, view (change entry) = viewed (view entry)) (entries : Array α) (index : Nat) :
    (entries.modify index change).map view = (entries.map view).modify index viewed := by
  apply Array.ext_getElem?
  intro other
  simp only [Array.getElem?_map, Array.getElem?_modify]
  by_cases here : index = other
  · simp only [if_pos here, Option.map_map, Function.comp_def, same]
  · rw [if_neg here, if_neg here]

theorem array_modify_modify {first second : α → α} (entries : Array α) (index : Nat) :
    (entries.modify index first).modify index second =
      entries.modify index (second ∘ first) := by
  apply Array.ext_getElem?
  intro other
  simp only [Array.getElem?_modify]
  by_cases here : index = other
  · rw [if_pos here, if_pos here, if_pos here, Option.map_map]
  · rw [if_neg here, if_neg here, if_neg here]

theorem map_modify {view : α → β} {change : α → α} {viewed : β → β}
    (same : ∀ entry, view (change entry) = viewed (view entry)) (table : Table α) (index : Nat) :
    (table.modify index change).map view = (table.map view).modify index viewed := by
  apply congrArg mk
  apply array_map_modify
  intro slot
  cases slot with
  | none => rfl
  | some entry => exact congrArg some (same entry)

end Table

end TypedIR
