import TypedIR.Flow.Dominators

/-!
Contract: tables of parents as trees.

Owns:
- ancestors, the blocks met on the way up;
- ranked tables, where every step up but that of the entry lowers a rank;
- what the two climbs find in a ranked table: the nearest common ancestor, and
  whether a block is an ancestor.
-/

namespace TypedIR.Flow.Parents

variable {parents : Parents} {rank : Nat → Nat} {ancestor block left right : Nat}

/-- The block has a parent. -/
def Known (parents : Parents) (block : Nat) : Prop := (parents.parent? block).isSome

theorem known_of_parent {parent : Nat} (up : parents.parent? block = some parent) :
    parents.Known block := by
  rw [Known, up]
  rfl

theorem Known.parent (known : parents.Known block) :
    ∃ parent, parents.parent? block = some parent :=
  Option.isSome_iff_exists.mp known

/-- The first block lies on the way up from the second, or is the same. -/
inductive Ancestor (parents : Parents) (ancestor : Nat) : Nat → Prop where
  | refl : Ancestor parents ancestor ancestor
  | climb {parent block : Nat} (up : parents.parent? block = some parent)
      (rest : Ancestor parents ancestor parent) : Ancestor parents ancestor block

/-- The entry is its own parent and has the least rank, ranks differ, and parents of all other
blocks have parents and lower ranks. -/
structure Ranked (parents : Parents) (rank : Nat → Nat) : Prop where
  entry : parents.parent? 0 = some 0
  least : ∀ block, parents.Known block → rank 0 ≤ rank block
  distinct : ∀ left right, parents.Known left → parents.Known right →
    rank left = rank right → left = right
  climbs : ∀ block parent, block ≠ 0 → parents.parent? block = some parent →
    parents.Known parent ∧ rank parent < rank block

theorem Ancestor.trans {middle : Nat} (upper : parents.Ancestor ancestor middle)
    (lower : parents.Ancestor middle block) : parents.Ancestor ancestor block := by
  induction lower with
  | refl => exact upper
  | climb up rest inductionHypothesis => exact .climb up inductionHypothesis

namespace Ranked

theorem known_entry (ranked : parents.Ranked rank) : parents.Known 0 := known_of_parent ranked.entry

theorem ancestor_entry (ranked : parents.Ranked rank) (above : parents.Ancestor ancestor 0) :
    ancestor = 0 := by
  generalize start : 0 = block at above
  induction above with
  | refl => rfl
  | @climb parent block up rest inductionHypothesis =>
      subst start
      obtain rfl : 0 = parent := Option.some.inj (ranked.entry.symm.trans up)
      exact inductionHypothesis rfl

theorem known_ancestor (ranked : parents.Ranked rank) (above : parents.Ancestor ancestor block)
    (known : parents.Known block) : parents.Known ancestor := by
  induction above with
  | refl => exact known
  | @climb parent block up rest inductionHypothesis =>
      apply inductionHypothesis
      by_cases entry : block = 0
      · subst entry
        rw [ranked.entry] at up
        exact Option.some.inj up ▸ ranked.known_entry
      · exact (ranked.climbs block parent entry up).1

theorem rank_ancestor_le (ranked : parents.Ranked rank)
    (above : parents.Ancestor ancestor block) : rank ancestor ≤ rank block := by
  induction above with
  | refl => exact Nat.le_refl _
  | @climb parent block up rest inductionHypothesis =>
      by_cases entry : block = 0
      · subst entry
        rw [ranked.entry] at up
        exact Option.some.inj up ▸ inductionHypothesis
      · have lower := (ranked.climbs block parent entry up).2
        omega

/-- Above a block of higher rank, an ancestor is an ancestor of the parent. -/
theorem ancestor_parent (above : parents.Ancestor ancestor block)
    (lower : rank ancestor < rank block) : parents.Ancestor ancestor (parents.parent block) := by
  cases above with
  | refl => omega
  | climb up rest =>
      rw [parent, up]
      exact rest

theorem not_entry_of_lower (ranked : parents.Ranked rank) (known : parents.Known left)
    (lower : rank left < rank right) : right ≠ 0 := by
  intro entry
  have least := ranked.least left known
  rw [entry] at lower
  omega

/-- One step up from a block of higher rank than a known one. -/
theorem step_up (ranked : parents.Ranked rank) (known : parents.Known right)
    (other : parents.Known left) (lower : rank left < rank right) :
    parents.Known (parents.parent right) ∧ rank (parents.parent right) < rank right ∧
      parents.Ancestor (parents.parent right) right := by
  obtain ⟨parent, up⟩ := known.parent
  have climbs := ranked.climbs right parent (ranked.not_entry_of_lower other lower) up
  have same : parents.parent right = parent := by rw [Parents.parent, up]; rfl
  rw [same]
  exact ⟨climbs.1, climbs.2, .climb up .refl⟩

/-! ### The nearest common ancestor -/

/-- The block is an ancestor of both, and below every other such. -/
structure Meets (parents : Parents) (first second met : Nat) : Prop where
  left : parents.Ancestor met first
  right : parents.Ancestor met second
  nearest : ∀ ancestor, parents.Ancestor ancestor first → parents.Ancestor ancestor second →
    parents.Ancestor ancestor met

theorem meetWithin_meets (ranked : parents.Ranked rank) {budget : Nat}
    (leftKnown : parents.Known left) (rightKnown : parents.Known right)
    (enough : rank left + rank right < budget) :
    Meets parents left right (parents.meetWithin rank budget left right) := by
  induction budget generalizing left right with
  | zero => omega
  | succ budget inductionHypothesis =>
      rw [meetWithin]
      by_cases leftLater : rank right < rank left
      · rw [if_pos leftLater]
        obtain ⟨known, lower, above⟩ := ranked.step_up leftKnown rightKnown leftLater
        have meets := inductionHypothesis known rightKnown (by omega)
        refine ⟨meets.left.trans above, meets.right, fun ancestor onLeft onRight => ?_⟩
        have high := ranked.rank_ancestor_le onRight
        have apart : rank ancestor < rank left := by omega
        exact meets.nearest ancestor (ancestor_parent onLeft apart) onRight
      · rw [if_neg leftLater]
        by_cases rightLater : rank left < rank right
        · rw [if_pos rightLater]
          obtain ⟨known, lower, above⟩ := ranked.step_up rightKnown leftKnown rightLater
          have meets := inductionHypothesis leftKnown known (by omega)
          refine ⟨meets.left, meets.right.trans above, fun ancestor onLeft onRight => ?_⟩
          have high := ranked.rank_ancestor_le onLeft
          have apart : rank ancestor < rank right := by omega
          exact meets.nearest ancestor onLeft (ancestor_parent onRight apart)
        · rw [if_neg rightLater]
          obtain rfl := ranked.distinct left right leftKnown rightKnown (by omega)
          exact ⟨.refl, .refl, fun ancestor onLeft _ => onLeft⟩

theorem meet_meets (ranked : parents.Ranked rank) (leftKnown : parents.Known left)
    (rightKnown : parents.Known right) :
    Meets parents left right (parents.meet rank left right) :=
  ranked.meetWithin_meets leftKnown rightKnown (Nat.lt_succ_self _)

/-! ### The test for ancestors -/

theorem climbsTo_iff (ranked : parents.Ranked rank) {budget : Nat} (known : parents.Known block)
    (enough : rank block ≤ budget) :
    parents.climbsTo ancestor budget block = true ↔ parents.Ancestor ancestor block := by
  induction budget generalizing block with
  | zero =>
      obtain ⟨parent, up⟩ := known.parent
      have entry : block = 0 := by
        apply Decidable.byContradiction
        intro notEntry
        have lower := (ranked.climbs block parent notEntry up).2
        omega
      subst entry
      rw [climbsTo, beq_iff_eq]
      exact ⟨fun same => same ▸ .refl, fun above => (ranked.ancestor_entry above).symm⟩
  | succ budget inductionHypothesis =>
      rw [climbsTo]
      by_cases arrived : block = ancestor
      · subst arrived
        exact iff_of_true (if_pos rfl) .refl
      rw [if_neg arrived]
      obtain ⟨parent, up⟩ := known.parent
      simp only [up]
      by_cases entry : block = 0
      · subst entry
        obtain rfl : parent = 0 := Option.some.inj (up.symm.trans ranked.entry)
        refine iff_of_false (by simp) fun above => arrived (ranked.ancestor_entry above).symm
      · have climbs := ranked.climbs block parent entry up
        have apart : parent ≠ block := fun same => absurd climbs.2 (by rw [same]; omega)
        rw [if_neg apart, inductionHypothesis climbs.1 (by omega)]
        constructor
        · exact fun above => .climb up above
        · intro above
          cases above with
          | refl => exact absurd rfl arrived
          | climb other rest => exact Option.some.inj (up.symm.trans other) ▸ rest

end Ranked

end TypedIR.Flow.Parents
