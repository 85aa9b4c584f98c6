import TypedIR.Proofs.Flow.Checked

/-!
Contract: the search for the nearest common ancestor of two blocks, loop by loop.

Owns:
- the search as rounds of climbs, first from the one block and then from the other one, without a
  result where it would look outside of the table or not be done within its budget;
- that it ends in a ranked table, at the common ancestor of greatest rank, whichever of the blocks
  comes first;
- the computation of the dominators with the list of its searches, each of which is for known
  blocks of a ranked table.

Does not own: why the tables in the middle of a sweep are ranked.
-/

namespace TypedIR.Flow

namespace Parents

/-- Climbs while the rank is above the bound. What has no parent is followed by the entry. -/
def lowerWithin? (parents : Parents) (rank : Nat → Nat) (bound : Nat) : Nat → Nat → Option Nat
  | 0, _ => none
  | budget + 1, block =>
      if bound < rank block then
        parents[block]?.bind fun up => parents.lowerWithin? rank bound budget (up.getD 0)
      else some block

/-- Rounds of two climbs, each until the rank is no higher than on the other side. -/
def intersectWithin? (parents : Parents) (rank : Nat → Nat) (climbs : Nat) :
    Nat → Nat → Nat → Option Nat
  | 0, _, _ => none
  | rounds + 1, left, right =>
      if left = right then some left
      else
        (parents.lowerWithin? rank (rank right) climbs left).bind fun left =>
          (parents.lowerWithin? rank (rank left) climbs right).bind fun right =>
            parents.intersectWithin? rank climbs rounds left right

def intersect? (parents : Parents) (rank : Nat → Nat) (left right : Nat) : Option Nat :=
  parents.intersectWithin? rank (rank left + rank right + 1) (rank left + rank right + 1) left right

variable {parents : Parents} {rank : Nat → Nat} {block left right met bound : Nat}

instance : Decidable (parents.Known block) := inferInstanceAs (Decidable (_ = true))

/-! ### One climb -/

/-- The block is the lowest ancestor of another one that the bound allows. -/
structure Lowers (parents : Parents) (rank : Nat → Nat) (bound block lowered : Nat) : Prop where
  known : parents.Known lowered
  above : parents.Ancestor lowered block
  bounded : rank lowered ≤ bound
  nearest : ∀ ancestor, parents.Ancestor ancestor block → rank ancestor ≤ bound →
    parents.Ancestor ancestor lowered

namespace Ranked

theorem lowerWithin?_lowers (ranked : parents.Ranked rank) {budget : Nat}
    (known : parents.Known block) (least : rank 0 ≤ bound) (enough : rank block < budget) :
    ∃ lowered, parents.lowerWithin? rank bound budget block = some lowered ∧
      parents.Lowers rank bound block lowered := by
  induction budget generalizing block with
  | zero => omega
  | succ budget inductionHypothesis =>
      by_cases high : bound < rank block
      · have notEntry : block ≠ 0 := fun entry => by
          rw [entry] at high
          omega
        obtain ⟨parent, up⟩ := known.parent
        obtain ⟨parentKnown, lower⟩ := ranked.climbs block parent notEntry up
        obtain ⟨lowered, found, lowers⟩ := inductionHypothesis parentKnown (by omega)
        refine ⟨lowered, ?_, ⟨lowers.known, .climb up lowers.above, lowers.bounded, ?_⟩⟩
        · rw [lowerWithin?, if_pos high, getElem?_of_parent up, Option.bind_some]
          exact found
        · intro ancestor above low
          have higher := ancestor_parent above (show rank ancestor < rank block by omega)
          rw [Parents.parent, up] at higher
          exact lowers.nearest ancestor higher low
      · refine ⟨block, ?_, ⟨known, .refl, by omega, fun _ above _ => above⟩⟩
        rw [lowerWithin?, if_neg high]

/-! ### Rounds -/

/-- After a round, the same block is the nearest common ancestor as before. -/
theorem meets_of_round (ranked : parents.Ranked rank) {leftLowered rightLowered : Nat}
    (onLeft : parents.Lowers rank (rank right) left leftLowered)
    (onRight : parents.Lowers rank (rank leftLowered) right rightLowered)
    (meets : Meets parents leftLowered rightLowered met) : Meets parents left right met where
  left := meets.left.trans onLeft.above
  right := meets.right.trans onRight.above
  nearest := by
    intro ancestor aboveLeft aboveRight
    have first := onLeft.nearest ancestor aboveLeft (ranked.rank_ancestor_le aboveRight)
    have second := onRight.nearest ancestor aboveRight (ranked.rank_ancestor_le first)
    exact meets.nearest ancestor first second

theorem intersectWithin?_meets (ranked : parents.Ranked rank) {climbs rounds : Nat}
    (leftKnown : parents.Known left) (rightKnown : parents.Known right)
    (leftEnough : rank left < climbs) (rightEnough : rank right < climbs)
    (enough : rank left + rank right < rounds) :
    ∃ met, parents.intersectWithin? rank climbs rounds left right = some met ∧
      Meets parents left right met := by
  induction rounds generalizing left right with
  | zero => omega
  | succ rounds inductionHypothesis =>
      by_cases same : left = right
      · subst same
        exact ⟨left, by rw [intersectWithin?, if_pos rfl], .refl, .refl, fun _ above _ => above⟩
      obtain ⟨leftLowered, leftFound, onLeft⟩ :=
        ranked.lowerWithin?_lowers leftKnown (ranked.least right rightKnown) leftEnough
      obtain ⟨rightLowered, rightFound, onRight⟩ :=
        ranked.lowerWithin?_lowers rightKnown (ranked.least leftLowered onLeft.known) rightEnough
      -- The ranks differ, so the climb from the block of greater rank lowers it.
      have apart : rank left ≠ rank right := mt (ranked.distinct left right leftKnown rightKnown) same
      have leftBelow := ranked.rank_ancestor_le onLeft.above
      have rightBelow := ranked.rank_ancestor_le onRight.above
      have leftBounded := onLeft.bounded
      have rightBounded := onRight.bounded
      obtain ⟨met, found, meets⟩ := inductionHypothesis onLeft.known onRight.known (by omega)
        (by omega) (by omega)
      refine ⟨met, ?_, ranked.meets_of_round onLeft onRight meets⟩
      rw [intersectWithin?, if_neg same, leftFound, Option.bind_some, rightFound, Option.bind_some]
      exact found

theorem meets_unique (ranked : parents.Ranked rank) {other : Nat} (leftKnown : parents.Known left)
    (meets : Meets parents left right met) (otherMeets : Meets parents left right other) :
    met = other := by
  have below := ranked.rank_ancestor_le (otherMeets.nearest met meets.left meets.right)
  have above := ranked.rank_ancestor_le (meets.nearest other otherMeets.left otherMeets.right)
  exact ranked.distinct met other (ranked.known_ancestor meets.left leftKnown)
    (ranked.known_ancestor otherMeets.left leftKnown) (Nat.le_antisymm below above)

/-- The rounds find what single steps from the block of greater rank find. -/
theorem intersect?_eq (ranked : parents.Ranked rank) (leftKnown : parents.Known left)
    (rightKnown : parents.Known right) :
    parents.intersect? rank left right = some (parents.meet rank left right) := by
  have leftEnough : rank left < rank left + rank right + 1 := by omega
  have rightEnough : rank right < rank left + rank right + 1 := by omega
  obtain ⟨met, found, meets⟩ := ranked.intersectWithin?_meets leftKnown rightKnown leftEnough
    rightEnough (Nat.lt_succ_self _)
  rw [intersect?, found,
    ranked.meets_unique leftKnown meets (ranked.meet_meets leftKnown rightKnown)]

theorem meet_comm (ranked : parents.Ranked rank) (leftKnown : parents.Known left)
    (rightKnown : parents.Known right) :
    parents.meet rank left right = parents.meet rank right left := by
  have swapped := ranked.meet_meets rightKnown leftKnown
  exact ranked.meets_unique leftKnown (ranked.meet_meets leftKnown rightKnown)
    ⟨swapped.right, swapped.left, fun ancestor onLeft onRight =>
      swapped.nearest ancestor onRight onLeft⟩

end Ranked

/-- The search ends, in either order of the blocks, at their common ancestor of greatest rank. -/
structure Intersects (parents : Parents) (rank : Nat → Nat) (left right met : Nat) : Prop where
  found : parents.intersect? rank left right = some met
  swapped : parents.intersect? rank right left = some met
  common : parents.Ancestor met left ∧ parents.Ancestor met right
  greatest : ∀ other, parents.Ancestor other left → parents.Ancestor other right →
    other ≠ met → rank other < rank met

theorem Ranked.intersects (ranked : parents.Ranked rank) (leftKnown : parents.Known left)
    (rightKnown : parents.Known right) :
    parents.Intersects rank left right (parents.meet rank left right) := by
  have meets := ranked.meet_meets leftKnown rightKnown
  refine
    { found := ranked.intersect?_eq leftKnown rightKnown
      swapped := ?_
      common := ⟨meets.left, meets.right⟩
      greatest := ?_ }
  · rw [ranked.meet_comm leftKnown rightKnown]
    exact ranked.intersect?_eq rightKnown leftKnown
  · intro other onLeft onRight different
    have below := ranked.rank_ancestor_le (meets.nearest other onLeft onRight)
    have apart := mt (ranked.distinct other _ (ranked.known_ancestor onLeft leftKnown)
      (ranked.known_ancestor meets.left leftKnown)) different
    omega

end Parents

/-! ### Runs with their searches -/

/-- A search for the nearest common ancestor of two blocks of a table. -/
structure Search where
  parents : Parents
  left : Nat
  right : Nat

/-- What a search relies on. -/
structure Search.Admissible (rank : Nat → Nat) (search : Search) : Prop where
  ranked : search.parents.Ranked rank
  left : search.parents.Known search.left
  right : search.parents.Known search.right

/-- A computation that may have no result, and the searches that it makes, in order. -/
def Run (α : Type) : Type := Option (α × List Search)

namespace Run

variable {α β : Type} {rank : Nat → Nat}

instance : Monad Run where
  pure value := some (value, [])
  bind run next := Option.bind run fun (value, searches) =>
    Option.map (fun (result, later) => (result, searches ++ later)) (next value)

/-- The run without a result. -/
def failure : Run α := (none : Option (α × List Search))

def search (rank : Nat → Nat) (parents : Parents) (left right : Nat) : Run Nat :=
  (parents.intersect? rank left right).map fun met => (met, [⟨parents, left, right⟩])

/-- The run has this result, and all its searches are admissible. -/
def Ends (rank : Nat → Nat) (run : Run α) (value : α) : Prop :=
  ∃ searches, run = some (value, searches) ∧ ∀ search ∈ searches, search.Admissible rank

theorem ends_pure (value : α) : Ends rank (pure value : Run α) value :=
  ⟨[], rfl, by simp⟩

theorem Ends.bind {run : Run α} {next : α → Run β} {value : α} {result : β}
    (ends : Ends rank run value) (continues : Ends rank (next value) result) :
    Ends rank (run >>= next) result := by
  obtain ⟨searches, rfl, admissible⟩ := ends
  obtain ⟨later, same, laterAdmissible⟩ := continues
  refine ⟨searches ++ later, ?_, ?_⟩
  · exact congrArg (Option.map fun found => (found.1, searches ++ found.2)) same
  · intro search member
    rcases List.mem_append.mp member with earlier | last
    · exact admissible search earlier
    · exact laterAdmissible search last

theorem ends_search {parents : Parents} {left right : Nat} (ranked : parents.Ranked rank)
    (leftKnown : parents.Known left) (rightKnown : parents.Known right) :
    Ends rank (search rank parents left right) (parents.meet rank left right) := by
  refine ⟨[⟨parents, left, right⟩], ?_, ?_⟩
  · rw [search, ranked.intersect?_eq leftKnown rightKnown]
    rfl
  · intro search member
    rw [List.mem_singleton.mp member]
    exact ⟨ranked, leftKnown, rightKnown⟩

end Run

namespace Graph

/-- A predecessor without a parent is passed over. -/
def agreeWithRun (rank : Nat → Nat) (parents : Parents) (agreed : Option Nat) (source : Nat) :
    Run (Option Nat) :=
  match parents[source]? with
  | none => .failure
  | some none => pure agreed
  | some (some _) =>
      match agreed with
      | none => pure (some source)
      | some current => do return some (← Run.search rank parents source current)

def refineRun (graph : Graph) (rank : Nat → Nat) (parents : Parents) (block : Nat) :
    Run Parents := do
  match ← (graph.predecessors block).foldlM (agreeWithRun rank parents) none with
  | none => return parents
  | some parent =>
      if block < parents.size then return parents.setIfInBounds block (some parent) else .failure

def sweepRun (graph : Graph) (order : List Nat) (rank : Nat → Nat) (parents : Parents) :
    Run Parents :=
  order.tail.foldlM (graph.refineRun rank) parents

/-- Sweeps until one of them changes nothing. -/
def settleRun (graph : Graph) (order : List Nat) (rank : Nat → Nat) : Nat → Parents → Run Parents
  | 0, _ => .failure
  | budget + 1, parents => do
      let next ← graph.sweepRun order rank parents
      if next = parents then return parents else graph.settleRun order rank budget next

def dominatorsRun (graph : Graph) : Run Parents :=
  graph.settleRun graph.reversePostorder graph.rank (graph.size * graph.size + 2)
    graph.rootedAtEntry

variable {graph : Graph} {parents next : Parents} {rank : Nat → Nat} {block : Nat}

theorem agreeWithRun_ends (ranked : parents.Ranked rank) {agreed result : Option Nat}
    {source : Nat} (known : ∀ current, agreed = some current → parents.Known current)
    (checked : agreeWith? rank parents agreed source = some result) :
    Run.Ends rank (agreeWithRun rank parents agreed source) result ∧
      ∀ current, result = some current → parents.Known current := by
  rw [agreeWith?.eq_def] at checked
  rw [agreeWithRun.eq_def]
  cases entry : parents[source]? with
  | none =>
      rw [entry] at checked
      cases checked
  | some up =>
      rw [entry] at checked
      cases up with
      | none =>
          obtain rfl := Option.some.inj checked
          exact ⟨Run.ends_pure _, known⟩
      | some parent =>
          have sourceKnown : parents.Known source :=
            Parents.known_of_parent (by rw [Parents.parent?, entry]; rfl)
          cases agreed with
          | none =>
              obtain rfl := Option.some.inj checked
              exact ⟨Run.ends_pure _, fun _ same => Option.some.inj same ▸ sourceKnown⟩
          | some current =>
              have currentKnown := known current rfl
              have meets := ranked.meet_meets sourceKnown currentKnown
              dsimp only at checked
              rw [ranked.meet?_eq sourceKnown currentKnown] at checked
              obtain rfl := Option.some.inj checked
              exact ⟨(Run.ends_search ranked sourceKnown currentKnown).bind (Run.ends_pure _),
                fun _ same => Option.some.inj same ▸ ranked.known_ancestor meets.left sourceKnown⟩

theorem foldlM_agreeWithRun (ranked : parents.Ranked rank) {sources : List Nat}
    {agreed result : Option Nat}
    (known : ∀ current, agreed = some current → parents.Known current)
    (checked : sources.foldlM (agreeWith? rank parents) agreed = some result) :
    Run.Ends rank (sources.foldlM (agreeWithRun rank parents) agreed) result := by
  induction sources generalizing agreed with
  | nil =>
      obtain rfl := Option.some.inj checked
      exact Run.ends_pure _
  | cons source rest inductionHypothesis =>
      rw [List.foldlM_cons] at checked
      obtain ⟨between, first, later⟩ := Option.bind_eq_some_iff.mp checked
      obtain ⟨ends, betweenKnown⟩ := agreeWithRun_ends ranked known first
      exact ends.bind (inductionHypothesis betweenKnown later)

theorem refineRun_ends (ranked : parents.Ranked rank)
    (checked : graph.refine? rank parents block = some next) :
    Run.Ends rank (graph.refineRun rank parents block) next := by
  obtain ⟨agreed, folded, chosen⟩ := Option.bind_eq_some_iff.mp checked
  refine (foldlM_agreeWithRun ranked (fun _ none => by cases none) folded).bind ?_
  cases agreed with
  | none =>
      obtain rfl := Option.some.inj chosen
      exact Run.ends_pure _
  | some parent =>
      dsimp only at chosen ⊢
      by_cases inside : block < parents.size
      · rw [if_pos inside] at chosen ⊢
        obtain rfl := Option.some.inj chosen
        exact Run.ends_pure _
      · rw [if_neg inside] at chosen
        cases chosen

/-- Every table in the middle of a sweep is ranked. -/
theorem sweepRun_ends {edges : Nat} (inhabited : 0 < graph.size)
    (approximates : graph.Approximates parents)
    (settled : ∀ block, graph.SettledAt parents edges block) :
    Run.Ends graph.rank (graph.sweepRun graph.reversePostorder graph.rank parents)
      (graph.sweep graph.reversePostorder graph.rank parents) := by
  refine sweep_induct (motive := fun parents rest =>
    Run.Ends graph.rank (rest.foldlM (graph.refineRun graph.rank) parents)
      (rest.foldl (graph.refine graph.rank) parents)) inhabited (fun _ => Run.ends_pure _)
        (fun approximates inside later => ?_) approximates settled
  have refined := refine?_eq approximates inhabited inside
  exact (refineRun_ends (approximates.ranked inhabited) refined).bind later

theorem settleRun_ends {edges budget : Nat} {last : Parents} (inhabited : 0 < graph.size)
    (approximates : graph.Approximates parents)
    (settled : ∀ block, graph.SettledAt parents edges block)
    (checked : graph.settle? graph.reversePostorder graph.rank budget parents = some last) :
    Run.Ends graph.rank (graph.settleRun graph.reversePostorder graph.rank budget parents)
      last := by
  induction budget generalizing parents edges with
  | zero => cases checked
  | succ budget inductionHypothesis =>
      have swept := sweepRun_ends inhabited approximates settled
      obtain ⟨nextApproximates, nextSettled⟩ := sweep_settles inhabited approximates settled
      rw [settle?, sweep?_eq inhabited approximates settled, Option.bind_some] at checked
      refine swept.bind ?_
      split
      · next stable =>
          rw [if_pos stable] at checked
          obtain rfl := Option.some.inj checked
          exact Run.ends_pure _
      · next changed =>
          rw [if_neg changed] at checked
          exact inductionHypothesis nextApproximates nextSettled checked

theorem dominatorsRun_ends (inhabited : 0 < graph.size) :
    Run.Ends graph.rank graph.dominatorsRun graph.dominators := by
  obtain ⟨approximates, settled⟩ := rootedAtEntry_approximates inhabited
  have checked := dominators?_eq inhabited
  rw [dominators?, reversePostorder?_eq inhabited, Option.bind_some] at checked
  exact settleRun_ends inhabited approximates settled checked

end Graph

/-- In a ranked table the search ends at the nearest common ancestor, and it is made in no other
table when dominators are computed. -/
theorem intersections_nearest :
    (∀ (parents : Parents) (rank : Nat → Nat) (left right : Nat), parents.Ranked rank →
      parents.Known left → parents.Known right →
        parents.Intersects rank left right (parents.meet rank left right)) ∧
      ∀ graph : Graph, 0 < graph.size →
        Run.Ends graph.rank graph.dominatorsRun graph.dominators :=
  ⟨fun _ _ _ _ ranked leftKnown rightKnown => ranked.intersects leftKnown rightKnown,
    fun _ inhabited => Graph.dominatorsRun_ends inhabited⟩

/-- Two ways that meet again, with edges from behind their end to their start and into one of
them. -/
def nested : Graph := .ofLists #[[1], [2, 3], [4], [4], [1, 5], [2]]

/-- The second sweep searches from the sources of the edges back as well, which have parents from
the first one. -/
theorem nested_intersected :
    0 < nested.size ∧ nested.dominators.Ranked nested.rank ∧
      nested.dominators.Intersects nested.rank 5 3 1 ∧
      Run.Ends nested.rank nested.dominatorsRun nested.dominators ∧
      ((nested.dominatorsRun : Option (Parents × List Search)).map fun ended =>
        ended.2.map fun search => (search.left, search.right)) =
          some [(3, 2), (4, 0), (5, 1), (3, 2)] := by
  have inhabited : 0 < nested.size := by decide
  have ranked := (Graph.dominators_settled inhabited).approximates.ranked inhabited
  have intersects := intersections_nearest.1 nested.dominators nested.rank 5 3 ranked
    (by decide) (by decide)
  have met : nested.dominators.meet nested.rank 5 3 = 1 := by decide
  rw [met] at intersects
  exact ⟨inhabited, ranked, intersects, intersections_nearest.2 nested inhabited, by decide +kernel⟩

end TypedIR.Flow
