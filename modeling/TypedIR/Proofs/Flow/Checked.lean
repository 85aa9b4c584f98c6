import TypedIR.Proofs.Flow.Dominance

/-!
Contract: the flow analysis with every access checked and every loop required to end.

Owns:
- the walk, the climbs and the iteration once more, each without a result where it would look at a
  block outside of the graph, climb from a block without a parent, or not be done within its
  budget;
- that on a graph with an entry each has the result of the analysis proper;
- the soundness of the order that the walk ends with: what it lists, what each block stands behind,
  and which edges may lead against it;
- immediate dominators and trees of dominators, stated without reference to how they are found, and
  that the table of parents is such a tree.

The iteration ends because a table that is settled up to the size of the graph is the only one, so a
sweep over it changes nothing. Nothing is asked of the edges: blocks that the entry does not reach
may have some, and so may those that lead back to the entry.
-/

/-! ## The checked analysis -/

namespace TypedIR.Flow

namespace Parents

/-- The climb to the nearest common ancestor. -/
def meetWithin? (parents : Parents) (rank : Nat → Nat) : Nat → Nat → Nat → Option Nat
  | 0, _, _ => none
  | budget + 1, left, right =>
      if left < parents.size ∧ right < parents.size then
        if rank right < rank left then
          (parents.parent? left).bind fun parent => parents.meetWithin? rank budget parent right
        else if rank left < rank right then
          (parents.parent? right).bind fun parent => parents.meetWithin? rank budget left parent
        else if left = right then some left
        else none
      else none

def meet? (parents : Parents) (rank : Nat → Nat) (left right : Nat) : Option Nat :=
  parents.meetWithin? rank (rank left + rank right + 1) left right

/-- The climb towards the entry. It ends at the block, at the entry, or where no parent is known. -/
def climbsTo? (parents : Parents) (block : Nat) : Nat → Nat → Option Bool
  | 0, _ => none
  | budget + 1, current =>
      if current = block then some true
      else
        match parents[current]? with
        | none => none
        | some none => some false
        | some (some parent) =>
            if parent = current then some false else parents.climbsTo? block budget parent

def dominates? (parents : Parents) (dominator block : Nat) : Option Bool :=
  parents.climbsTo? dominator (parents.size + 1) block

end Parents

namespace Graph

/-- The walk, with the blocks that it steps on. -/
def walk? (graph : Graph) :
    Nat → List (Nat × List Nat) → List Nat → List Nat → Option (List Nat)
  | _, [], _, finished => some finished
  | 0, _ :: _, _, _ => none
  | budget + 1, (block, []) :: stack, seen, finished =>
      if block < graph.size then graph.walk? budget stack seen (block :: finished) else none
  | budget + 1, (block, target :: targets) :: stack, seen, finished =>
      if block < graph.size ∧ target < graph.size then
        if target ∈ seen then graph.walk? budget ((block, targets) :: stack) seen finished
        else
          graph.walk? budget ((target, graph.successors target) :: (block, targets) :: stack)
            (target :: seen) finished
      else none

def reversePostorder? (graph : Graph) : Option (List Nat) :=
  if 0 < graph.size then graph.walk? graph.walkSteps [(0, graph.successors 0)] [0] [] else none

/-- A predecessor without a parent is passed over. -/
def agreeWith? (rank : Nat → Nat) (parents : Parents) (agreed : Option Nat) (source : Nat) :
    Option (Option Nat) :=
  match parents[source]? with
  | none => none
  | some none => some agreed
  | some (some _) =>
      match agreed with
      | none => some (some source)
      | some current => (parents.meet? rank source current).map some

def agreedParent? (graph : Graph) (rank : Nat → Nat) (parents : Parents) (block : Nat) :
    Option (Option Nat) :=
  (graph.predecessors block).foldlM (agreeWith? rank parents) none

def refine? (graph : Graph) (rank : Nat → Nat) (parents : Parents) (block : Nat) :
    Option Parents :=
  (graph.agreedParent? rank parents block).bind fun agreed =>
    match agreed with
    | none => some parents
    | some parent =>
        if block < parents.size then some (parents.setIfInBounds block (some parent)) else none

def sweep? (graph : Graph) (order : List Nat) (rank : Nat → Nat) (parents : Parents) :
    Option Parents :=
  order.tail.foldlM (graph.refine? rank) parents

/-- Sweeps until one of them changes nothing. -/
def settle? (graph : Graph) (order : List Nat) (rank : Nat → Nat) : Nat → Parents → Option Parents
  | 0, _ => none
  | budget + 1, parents =>
      (graph.sweep? order rank parents).bind fun next =>
        if next = parents then some parents else graph.settle? order rank budget next

def dominators? (graph : Graph) : Option Parents :=
  graph.reversePostorder?.bind fun order =>
    graph.settle? order (fun block => order.idxOf block) (graph.size * graph.size + 2)
      graph.rootedAtEntry

end Graph

/-! ### Climbs -/

namespace Parents

variable {parents : Parents} {rank : Nat → Nat} {block left right : Nat}

theorem Known.lt_size (known : parents.Known block) : block < parents.size := by
  apply Decidable.byContradiction
  intro outside
  rw [Known, parent?, Array.getElem?_eq_none (Nat.le_of_not_lt outside)] at known
  cases known

theorem getElem?_of_parent {parent : Nat} (up : parents.parent? block = some parent) :
    parents[block]? = some (some parent) := by
  rwa [parent?, Option.join_eq_some_iff] at up

namespace Ranked

theorem meetWithin?_eq (ranked : parents.Ranked rank) {budget : Nat}
    (leftKnown : parents.Known left) (rightKnown : parents.Known right)
    (enough : rank left + rank right < budget) :
    parents.meetWithin? rank budget left right =
      some (parents.meetWithin rank budget left right) := by
  induction budget generalizing left right with
  | zero => omega
  | succ budget inductionHypothesis =>
      rw [meetWithin?, meetWithin, if_pos ⟨leftKnown.lt_size, rightKnown.lt_size⟩]
      by_cases leftLater : rank right < rank left
      · obtain ⟨known, lower, _⟩ := ranked.step_up leftKnown rightKnown leftLater
        obtain ⟨parent, up⟩ := leftKnown.parent
        rw [if_pos leftLater, if_pos leftLater, up, Option.bind_some,
          ← inductionHypothesis known rightKnown (by omega), Parents.parent, up]
        rfl
      · rw [if_neg leftLater, if_neg leftLater]
        by_cases rightLater : rank left < rank right
        · obtain ⟨known, lower, _⟩ := ranked.step_up rightKnown leftKnown rightLater
          obtain ⟨parent, up⟩ := rightKnown.parent
          rw [if_pos rightLater, if_pos rightLater, up, Option.bind_some,
            ← inductionHypothesis leftKnown known (by omega), Parents.parent, up]
          rfl
        · have same := ranked.distinct left right leftKnown rightKnown (by omega)
          rw [if_neg rightLater, if_neg rightLater, if_pos same]

theorem meet?_eq (ranked : parents.Ranked rank) (leftKnown : parents.Known left)
    (rightKnown : parents.Known right) :
    parents.meet? rank left right = some (parents.meet rank left right) :=
  ranked.meetWithin?_eq leftKnown rightKnown (Nat.lt_succ_self _)

theorem climbsTo?_eq (ranked : parents.Ranked rank) {ancestor budget : Nat}
    (known : parents.Known block) (enough : rank block ≤ budget) :
    parents.climbsTo? ancestor (budget + 1) block =
      some (parents.climbsTo ancestor budget block) := by
  induction budget generalizing block with
  | zero =>
      obtain ⟨parent, up⟩ := known.parent
      have entry : block = 0 := by
        apply Decidable.byContradiction
        intro notEntry
        have lower := (ranked.climbs block parent notEntry up).2
        omega
      subst entry
      rw [climbsTo?, climbsTo, getElem?_of_parent ranked.entry]
      by_cases arrived : 0 = ancestor <;> simp [arrived]
  | succ budget inductionHypothesis =>
      obtain ⟨parent, up⟩ := known.parent
      rw [climbsTo?, climbsTo, getElem?_of_parent up, up]
      by_cases arrived : block = ancestor
      · rw [if_pos arrived, if_pos arrived]
      · rw [if_neg arrived, if_neg arrived]
        by_cases entry : parent = block
        · simp [entry]
        · have notEntry : block ≠ 0 := by
            rintro rfl
            exact entry (Option.some.inj (up.symm.trans ranked.entry))
          obtain ⟨higher, lower⟩ := ranked.climbs block parent notEntry up
          simp only [if_neg entry]
          exact inductionHypothesis higher (by omega)

end Ranked

end Parents

namespace Graph

variable {graph : Graph} {parents : Parents} {block : Nat}

/-! ### The walk -/

theorem Walking.inside {stack : List (Nat × List Nat)} {seen finished : List Nat}
    (walking : graph.Walking stack seen finished) (inhabited : 0 < graph.size)
    (member : block ∈ trail stack finished) : block < graph.size := by
  by_cases entry : block = 0
  · rwa [entry]
  · obtain ⟨source, edge, _⟩ := walking.opened block member entry
    exact graph.closed source block edge

theorem walk?_eq {stack : List (Nat × List Nat)} {seen finished : List Nat} {budget : Nat}
    (inhabited : 0 < graph.size) (walking : graph.Walking stack seen finished)
    (enough : graph.stepsLeft stack seen < budget) :
    graph.walk? budget stack seen finished = some (graph.walk budget stack seen finished) := by
  induction budget generalizing stack seen finished with
  | zero => omega
  | succ budget inductionHypothesis =>
      rcases stack with _ | ⟨⟨block, targets⟩, stack⟩
      · rw [walk?, walk]
        exact fun zero => by cases zero
      have inside : block < graph.size := walking.inside inhabited (mem_trail.mpr (.inl (by simp)))
      rcases targets with _ | ⟨target, targets⟩
      · rw [walk?, walk, if_pos inside]
        apply inductionHypothesis walking.close
        simp only [stepsLeft, List.flatMap_cons, List.length_append, List.length_cons] at enough ⊢
        omega
      · have edge := walking.offered _ List.mem_cons_self target List.mem_cons_self
        rw [walk?, walk, if_pos ⟨inside, graph.closed block target edge⟩]
        by_cases met : target ∈ seen
        · rw [if_pos met, if_pos met]
          apply inductionHypothesis (walking.skip met)
          simp only [stepsLeft, List.flatMap_cons, List.length_append, List.length_cons]
            at enough ⊢
          omega
        · rw [if_neg met, if_neg met]
          apply inductionHypothesis (walking.enter met)
          have counted := stepsLeft_enter stack block targets (graph.closed block target edge) met
          omega

theorem reversePostorder?_eq (inhabited : 0 < graph.size) :
    graph.reversePostorder? = some graph.reversePostorder := by
  rw [reversePostorder?, reversePostorder, if_pos inhabited, if_neg (Nat.ne_of_gt inhabited)]
  exact walk?_eq inhabited .start (stepsLeft_start inhabited)

/-! ### The order

The walk keeps what the reverse postorder is for: each block behind one of its predecessors, and an
edge against the order only where a path closes a loop. -/

section Order

variable {order : List Nat} {source target : Nat}

/-- The order lists what the entry reaches, along the edges as far as they are on no loop.

A block stands before another one if the two, in this order, are a sublist. -/
structure Orders (graph : Graph) (order : List Nat) : Prop where
  nodup : order.Nodup
  starts : order.head? = some 0
  complete : ∀ block, block ∈ order ↔ graph.Reaches 0 block
  preceded : ∀ block ∈ order, block ≠ 0 →
    ∃ source, block ∈ graph.successors source ∧ [source, block].Sublist order
  forward : ∀ source ∈ order, ∀ target ∈ graph.successors source,
    [source, target].Sublist order ∨ graph.Reaches target source

/-- Every edge from a listed block leads forward. -/
def Topological (graph : Graph) (order : List Nat) : Prop :=
  ∀ source ∈ order, ∀ target ∈ graph.successors source, [source, target].Sublist order

/-- No edge from a listed block is part of a loop. -/
def LoopFree (graph : Graph) (order : List Nat) : Prop :=
  ∀ source ∈ order, ∀ target ∈ graph.successors source, ¬ graph.Reaches target source

/-- Along a path, positions do not fall. -/
theorem Topological.idxOf_le {visited : List Nat} (topological : graph.Topological order)
    (nodup : order.Nodup) (path : graph.Path source visited target) (listed : source ∈ order) :
    order.idxOf source ≤ order.idxOf target := by
  induction path with
  | single => exact Nat.le_refl _
  | cons edge _ inductionHypothesis =>
      have ahead := topological _ listed _ edge
      have lower := idxOf_lt_of_sublist nodup ahead
      have later := inductionHypothesis (ahead.subset (by simp))
      omega

theorem Orders.topological_iff (orders : graph.Orders order) :
    graph.Topological order ↔ graph.LoopFree order := by
  constructor
  · rintro topological source listed target edge ⟨visited, back⟩
    have ahead := topological source listed target edge
    have lower := idxOf_lt_of_sublist orders.nodup ahead
    have higher := topological.idxOf_le orders.nodup back (ahead.subset (by simp))
    omega
  · intro loopFree source listed target edge
    exact (orders.forward source listed target edge).resolve_right
      (loopFree source listed target edge)

/-- The walk ends with no access out of range, and its order is sound. -/
theorem reversePostorder_sound (graph : Graph) (inhabited : 0 < graph.size) :
    graph.reversePostorder? = some graph.reversePostorder ∧
      graph.Orders graph.reversePostorder ∧
      (graph.Topological graph.reversePostorder ↔ graph.LoopFree graph.reversePostorder) := by
  have orders : graph.Orders graph.reversePostorder :=
    { nodup := nodup_reversePostorder inhabited
      starts := by rw [reversePostorder_eq_cons inhabited, List.head?_cons]
      complete := fun _ => mem_reversePostorder_iff inhabited
      preceded := fun _ => predecessor_before inhabited
      forward := fun _ listed _ => edge_forward_or_loop inhabited listed }
  exact ⟨reversePostorder?_eq inhabited, orders, orders.topological_iff⟩

/-- Two ways into a loop, of which the walk takes the first one, and a block that is not reached. -/
def braided : Graph := ofLists #[[2, 1], [3], [3], [1, 4], [], [4]]

/-- The block at the end of the second way stands last, so the edge from it leads back. -/
theorem braided_ordered :
    0 < braided.size ∧ braided.Orders [0, 2, 3, 4, 1] ∧
      3 ∈ braided.successors 1 ∧ braided.Reaches 3 1 ∧
      ¬ braided.Topological [0, 2, 3, 4, 1] ∧ ¬ braided.Reaches 0 5 := by
  have inhabited : 0 < braided.size := by decide
  have order : braided.reversePostorder = [0, 2, 3, 4, 1] := by decide
  obtain ⟨_, orders, _⟩ := reversePostorder_sound braided inhabited
  rw [order] at orders
  have edge : 3 ∈ braided.successors 1 := by decide
  have against : ¬ [1, 3].Sublist [0, 2, 3, 4, 1] := by decide
  have loop := (orders.forward 1 (by decide) 3 edge).resolve_left against
  exact ⟨inhabited, orders, edge, loop,
    fun topological => against (topological 1 (by decide) 3 edge),
    fun reached => absurd ((orders.complete 5).mpr reached) (by decide)⟩

end Order

/-! ### Refinement -/

theorem foldlM_agreeWith? {rank : Nat → Nat} (ranked : parents.Ranked rank) {sources : List Nat}
    {agreed : Option Nat} (inside : ∀ source ∈ sources, source < parents.size)
    (known : ∀ current, agreed = some current → parents.Known current) :
    sources.foldlM (agreeWith? rank parents) agreed =
      some ((sources.filter fun source => (parents.parent? source).isSome).foldl
        (agreeWith rank parents) agreed) := by
  induction sources generalizing agreed with
  | nil => rfl
  | cons source rest inductionHypothesis =>
      have later : ∀ other ∈ rest, other < parents.size := fun other member =>
        inside other (List.mem_cons_of_mem _ member)
      have sourceInside : source < parents.size := inside source List.mem_cons_self
      have entry := Array.getElem?_eq_getElem sourceInside
      rw [List.foldlM_cons, agreeWith?.eq_def, entry]
      cases up : parents[source] with
      | none =>
          have unknown : parents.parent? source = none := by rw [Parents.parent?, entry, up]; rfl
          rw [List.filter_cons_of_neg (by simp [unknown])]
          exact inductionHypothesis later known
      | some parent =>
          have here : parents.parent? source = some parent := by
            rw [Parents.parent?, entry, up]
            rfl
          have sourceKnown := Parents.known_of_parent here
          rw [List.filter_cons_of_pos (by simp [here]), List.foldl_cons]
          cases agreed with
          | none =>
              exact inductionHypothesis later fun current same =>
                Option.some.inj same ▸ sourceKnown
          | some current =>
              have currentKnown := known current rfl
              have meets := ranked.meet_meets sourceKnown currentKnown
              dsimp only
              rw [ranked.meet?_eq sourceKnown currentKnown]
              exact inductionHypothesis later fun other same =>
                Option.some.inj same ▸ ranked.known_ancestor meets.left sourceKnown

theorem refine?_eq (approximates : graph.Approximates parents) (inhabited : 0 < graph.size)
    (inside : block < graph.size) :
    graph.refine? graph.rank parents block = some (graph.refine graph.rank parents block) := by
  have predecessors : ∀ source ∈ graph.predecessors block, source < parents.size := by
    intro source member
    rw [approximates.size]
    exact (mem_predecessors.mp member).1
  have agreed : graph.agreedParent? graph.rank parents block =
      some (graph.agreedParent graph.rank parents block) :=
    foldlM_agreeWith? (approximates.ranked inhabited) predecessors fun _ none => by cases none
  rw [refine?, refine, agreed, Option.bind_some]
  cases graph.agreedParent graph.rank parents block with
  | none => rfl
  | some parent => exact if_pos (approximates.size ▸ inside)

/-! ### Sweeps -/

/-- A sweep refines approximations only, each of them at a block of the graph. -/
theorem sweep_induct {motive : Parents → List Nat → Prop} {edges : Nat}
    (inhabited : 0 < graph.size) (done : ∀ parents, motive parents [])
    (next : ∀ {parents block rest}, graph.Approximates parents → block < graph.size →
      motive (graph.refine graph.rank parents block) rest → motive parents (block :: rest))
    (approximates : graph.Approximates parents)
    (settled : ∀ block, graph.SettledAt parents edges block) :
    motive parents graph.reversePostorder.tail := by
  have onward : ∀ rest front parents, graph.reversePostorder = 0 :: front ++ rest →
      graph.Sweeping parents edges (0 :: front) → motive parents rest := by
    intro rest
    induction rest with
    | nil => exact fun _ parents _ _ => done parents
    | cons block rest inductionHypothesis =>
        intro front parents order sweeping
        have refinable := sweeping.refinable inhabited order
        have inside := lt_size_of_mem_reversePostorder inhabited refinable.listed
        have refined := sweeping.refine inhabited refinable
        have shifted : graph.reversePostorder = 0 :: (front ++ [block]) ++ rest := by
          rw [order]
          simp
        exact next sweeping.approximates inside
          (inductionHypothesis _ _ shifted (by simpa using refined))
  exact onward _ [] parents (by simpa using reversePostorder_eq_cons inhabited)
    (approximates.sweeping settled)

theorem sweep?_eq {edges : Nat} (inhabited : 0 < graph.size)
    (approximates : graph.Approximates parents)
    (settled : ∀ block, graph.SettledAt parents edges block) :
    graph.sweep? graph.reversePostorder graph.rank parents =
      some (graph.sweep graph.reversePostorder graph.rank parents) := by
  refine sweep_induct (motive := fun parents rest =>
    rest.foldlM (graph.refine? graph.rank) parents =
      some (rest.foldl (graph.refine graph.rank) parents)) inhabited (fun _ => rfl)
        (fun approximates inside later => ?_) approximates settled
  rw [List.foldlM_cons, refine?_eq approximates inhabited inside, List.foldl_cons]
  exact later

/-! ### The end of the iteration -/

/-- What dominates a block from elsewhere dominates its parent. -/
theorem Settled.parent_dominates (settled : graph.Settled parents) (inhabited : 0 < graph.size)
    {parent : Nat} (notEntry : block ≠ 0) (up : parents.parent? block = some parent) :
    graph.Dominates parent block ∧ parent ≠ block ∧ ∀ dominator,
      graph.Dominates dominator block → dominator ≠ block → graph.Dominates dominator parent := by
  have reached := (settled.known_iff inhabited).mp (Parents.known_of_parent up)
  have lower := (settled.approximates.climbs block parent notEntry up).2
  refine ⟨(settled.ancestor_iff inhabited reached).mp (.climb up .refl), fun same => ?_, ?_⟩
  · rw [same] at lower
    omega
  · exact fun dominator => settled.approximates.keeps block parent dominator notEntry up

/-- There is one settled table. -/
theorem Settled.unique {first second : Parents} (left : graph.Settled first)
    (right : graph.Settled second) (inhabited : 0 < graph.size) : first = second := by
  have parents : ∀ block, first.parent? block = second.parent? block := by
    intro block
    by_cases entry : block = 0
    · rw [entry, left.approximates.entry, right.approximates.entry]
    by_cases reached : graph.Reaches 0 block
    · obtain ⟨upper, up⟩ := ((left.known_iff inhabited).mpr reached).parent
      obtain ⟨other, otherUp⟩ := ((right.known_iff inhabited).mpr reached).parent
      obtain ⟨dominates, apart, nearest⟩ := left.parent_dominates inhabited entry up
      obtain ⟨otherDominates, otherApart, otherNearest⟩ :=
        right.parent_dominates inhabited entry otherUp
      -- Each of the two parents is an ancestor of the other.
      have known := (left.approximates.climbs block upper entry up).1
      have otherKnown := (right.approximates.climbs block other entry otherUp).1
      have below := (left.approximates.ranked inhabited).rank_ancestor_le
        (left.approximates.ancestor_of_dominates known (nearest other otherDominates otherApart))
      have above := (right.approximates.ranked inhabited).rank_ancestor_le
        (right.approximates.ancestor_of_dominates otherKnown (otherNearest upper dominates apart))
      have same := rank_injective (left.approximates.listed upper known)
        (Nat.le_antisymm above below)
      rw [up, otherUp, same]
    · have unknown : ∀ {table : Parents}, graph.Settled table → table.parent? block = none := by
        intro table settled
        exact Option.not_isSome_iff_eq_none.mp (mt (settled.known_iff inhabited).mp reached)
      rw [unknown left, unknown right]
  have sizes : first.size = second.size := left.approximates.size.trans right.approximates.size.symm
  refine Array.ext sizes fun block inside otherInside => ?_
  have same := parents block
  rw [Parents.parent?, Parents.parent?, Array.getElem?_eq_getElem inside,
    Array.getElem?_eq_getElem otherInside] at same
  exact same

theorem settled_iterate (inhabited : 0 < graph.size) {sweeps : Nat} (enough : graph.size ≤ sweeps) :
    graph.Settled ((graph.sweep graph.reversePostorder graph.rank)^[sweeps]
      graph.rootedAtEntry) := by
  obtain ⟨approximates, settled⟩ := iterate_sweep_settles inhabited sweeps
  exact ⟨approximates, fun block visited path short => settled block visited path (by omega)⟩

/-- The iteration stops, at the latest with one sweep more than there are blocks. -/
theorem settle?_iterate (inhabited : 0 < graph.size) {budget sweeps : Nat}
    (early : sweeps ≤ graph.size) (enough : graph.size < sweeps + budget) :
    graph.settle? graph.reversePostorder graph.rank budget
        ((graph.sweep graph.reversePostorder graph.rank)^[sweeps] graph.rootedAtEntry) =
      some (graph.settle graph.reversePostorder graph.rank budget
        ((graph.sweep graph.reversePostorder graph.rank)^[sweeps] graph.rootedAtEntry)) := by
  induction budget generalizing sweeps with
  | zero => omega
  | succ budget inductionHypothesis =>
      obtain ⟨approximates, settled⟩ := iterate_sweep_settles inhabited sweeps
      rw [settle?, settle, sweep?_eq inhabited approximates settled, Option.bind_some]
      split
      · rfl
      · next changed =>
          rw [← Function.iterate_succ_apply' (graph.sweep graph.reversePostorder graph.rank)]
            at changed ⊢
          have earlier : sweeps ≠ graph.size := by
            rintro rfl
            exact changed ((settled_iterate inhabited (Nat.le_succ _)).unique
              (settled_iterate inhabited (Nat.le_refl _)) inhabited)
          exact inductionHypothesis (by omega) (by omega)

theorem dominators?_eq (inhabited : 0 < graph.size) :
    graph.dominators? = some graph.dominators := by
  have square := Nat.le_mul_self graph.size
  rw [dominators?, reversePostorder?_eq inhabited, Option.bind_some]
  exact @settle?_iterate graph inhabited (graph.size * graph.size + 2) 0 (Nat.zero_le _) (by omega)

/-- The test for dominance ends at every block that the entry reaches. -/
theorem dominates?_eq (inhabited : 0 < graph.size) (listed : block ∈ graph.reversePostorder)
    (dominator : Nat) :
    graph.dominators.dominates? dominator block =
      some (graph.dominators.dominates dominator block) := by
  have settled := dominators_settled inhabited
  have known := (settled.known_iff inhabited).mpr ((mem_reversePostorder_iff inhabited).mp listed)
  exact (settled.approximates.ranked inhabited).climbsTo?_eq known
    (settled.approximates.rank_le known inhabited)

end Graph

end TypedIR.Flow

/-! ## Immediate dominators -/

namespace TypedIR.Flow.Graph

variable {graph : Graph} {parents : Parents} {block first second : Nat}

/-- The nearest of the blocks that dominate a block from elsewhere. -/
structure ImmediatelyDominates (graph : Graph) (dominator block : Nat) : Prop where
  apart : dominator ≠ block
  dominates : graph.Dominates dominator block
  nearest : ∀ other, other ≠ block → graph.Dominates other block → graph.Dominates other dominator

/-- Of two different blocks one is reached without the other. -/
theorem Dominates.antisymm (reached : graph.Reaches 0 second)
    (forward : graph.Dominates first second) (backward : graph.Dominates second first) :
    first = second := by
  obtain ⟨visited, path⟩ := reached
  obtain ⟨_, _, _, toFirst⟩ := path.prefix_to (forward visited path)
  -- The path to the first block that meets it only at its end goes through the second one.
  obtain ⟨before, short, avoids, _⟩ := toFirst.to_first_visit
  obtain ⟨front, back, split, toSecond⟩ := short.prefix_to (backward _ short)
  have through : first ∈ front := forward front toSecond
  rcases List.eq_nil_or_concat back with rfl | ⟨rest, last, rfl⟩
  · obtain ⟨earlier, rfl⟩ := toSecond.eq_snoc
    rw [List.append_nil] at split
    exact List.singleton_inj.mp (List.append_inj_right' split rfl)
  · rw [List.concat_eq_append, ← List.append_assoc] at split
    have same : before = front ++ rest := List.append_inj_left' split rfl
    exact absurd (same ▸ List.mem_append_left _ through) avoids

theorem ImmediatelyDominates.unique (reached : graph.Reaches 0 block)
    (left : graph.ImmediatelyDominates first block)
    (right : graph.ImmediatelyDominates second block) : first = second := by
  obtain ⟨visited, path⟩ := reached
  obtain ⟨_, _, _, toSecond⟩ := path.prefix_to (right.dominates visited path)
  exact Dominates.antisymm ⟨_, toSecond⟩ (right.nearest first left.apart left.dominates)
    (left.nearest second right.apart right.dominates)

/-- The table gives the entry to itself, to each other block that the entry reaches its immediate
dominator, and nothing to all others. -/
structure DominatorTree (graph : Graph) (parents : Parents) : Prop where
  size : parents.size = graph.size
  entry : parents.parent? 0 = some 0
  unreached : ∀ block, parents.parent? block = none ↔ ¬ graph.Reaches 0 block
  immediate : ∀ block parent, block ≠ 0 → (parents.parent? block = some parent ↔
    graph.Reaches 0 block ∧ graph.ImmediatelyDominates parent block)

theorem Settled.immediate (settled : graph.Settled parents) (inhabited : 0 < graph.size)
    {parent : Nat} (notEntry : block ≠ 0) (up : parents.parent? block = some parent) :
    graph.ImmediatelyDominates parent block := by
  obtain ⟨dominates, apart, nearest⟩ := settled.parent_dominates inhabited notEntry up
  exact ⟨apart, dominates, fun other different above => nearest other above different⟩

theorem Settled.dominatorTree (settled : graph.Settled parents) (inhabited : 0 < graph.size) :
    graph.DominatorTree parents where
  size := settled.approximates.size
  entry := settled.approximates.entry
  unreached block := by
    rw [← settled.known_iff inhabited, Parents.Known, Option.not_isSome_iff_eq_none]
  immediate := by
    intro block parent notEntry
    constructor
    · intro up
      exact ⟨(settled.known_iff inhabited).mp (Parents.known_of_parent up),
        settled.immediate inhabited notEntry up⟩
    · rintro ⟨reached, immediate⟩
      obtain ⟨other, up⟩ := ((settled.known_iff inhabited).mpr reached).parent
      rw [up, immediate.unique reached (settled.immediate inhabited notEntry up)]

/-- What the analysis of a graph comes to: the walk, the iteration and the test for dominance all
end, none of them looks outside of the graph, and they tell immediate dominators and dominators. -/
structure Analyzes (graph : Graph) : Prop where
  order : graph.reversePostorder? = some graph.reversePostorder
  settles : graph.dominators? = some graph.dominators
  tree : graph.DominatorTree graph.dominators
  climbs : ∀ dominator block, graph.Reaches 0 block →
    graph.dominators.dominates? dominator block =
      some (graph.dominators.dominates dominator block)
  dominates : ∀ dominator block, graph.Reaches 0 block →
    (graph.dominators.dominates dominator block = true ↔ graph.Dominates dominator block)

/-- Two blocks in a loop that can be entered at either, behind one of them a block with an edge to
itself, behind that the last one, and a block that is not reached. -/
def tangled : Graph := ofLists #[[2, 3, 3], [2, 1, 4], [3, 1], [2], [], [4, 1]]

theorem analysis_exact (graph : Graph) (inhabited : 0 < graph.size) : graph.Analyzes where
  order := reversePostorder?_eq inhabited
  settles := dominators?_eq inhabited
  tree := (dominators_settled inhabited).dominatorTree inhabited
  climbs dominator _ reached :=
    dominates?_eq inhabited ((mem_reversePostorder_iff inhabited).mpr reached) dominator
  dominates _ _ reached := dominates_iff inhabited reached

/-- Neither block of the loop dominates the other, and the predecessor that is not reached does not
count. -/
theorem tangled_analyzed :
    0 < tangled.size ∧ tangled.Analyzes ∧
      tangled.dominators = #[some 0, some 2, some 0, some 0, some 1, none] ∧
      tangled.ImmediatelyDominates 1 4 ∧ ¬ tangled.Dominates 3 4 := by
  have inhabited : 0 < tangled.size := by decide
  have analyzes := analysis_exact tangled inhabited
  have table : tangled.dominators = #[some 0, some 2, some 0, some 0, some 1, none] := by decide
  obtain ⟨reached, immediate⟩ := (analyzes.tree.immediate 4 1 (by decide)).mp (by decide)
  refine ⟨inhabited, analyzes, table, immediate, fun dominates => ?_⟩
  have told := (analyzes.dominates 3 4 reached).mpr dominates
  exact absurd told (by decide)

end TypedIR.Flow.Graph
