import Mathlib.Logic.Function.Iterate
import TypedIR.Proofs.Flow.Ancestors
import TypedIR.Proofs.Flow.Order

/-!
Contract: the iteration finds the dominators.

Owns:
- tables that approximate dominance from below: the parent of a block has lower
  rank, reaches it through blocks of no lower rank, and is dominated by whatever
  dominates the block;
- tables that are settled up to a length of paths: the parent of a block lies on
  every such path from the entry;
- what one refinement and one sweep do to both, and the table at the end, whose
  ancestors are the dominators.

Every approximation lists the dominators of a block among its ancestors. Each
sweep settles paths that are one edge longer, and a path without loops is no
longer than the graph.
-/

namespace TypedIR.Flow.Graph

variable {graph : Graph} {parents : Parents} {block parent dominator ancestor : Nat}

/-- A table whose parents may lie too low, but never above a dominator. -/
structure Approximates (graph : Graph) (parents : Parents) : Prop where
  size : parents.size = graph.size
  entry : parents.parent? 0 = some 0
  listed : ∀ block, parents.Known block → block ∈ graph.reversePostorder
  climbs : ∀ block parent, block ≠ 0 → parents.parent? block = some parent →
    parents.Known parent ∧ graph.rank parent < graph.rank block
  descends : ∀ block parent, block ≠ 0 → parents.parent? block = some parent →
    ∃ visited, graph.Path parent visited block ∧
      ∀ between ∈ visited, graph.rank parent ≤ graph.rank between
  keeps : ∀ block parent dominator, block ≠ 0 → parents.parent? block = some parent →
    graph.Dominates dominator block → dominator ≠ block → graph.Dominates dominator parent

namespace Approximates

theorem ranked (approximates : graph.Approximates parents) (inhabited : 0 < graph.size) :
    parents.Ranked graph.rank where
  entry := approximates.entry
  least := by
    intro block _
    rw [rank_entry inhabited]
    exact Nat.zero_le _
  distinct left _ leftKnown _ same := rank_injective (approximates.listed left leftKnown) same
  climbs := approximates.climbs

/-- There are no more ranks than blocks. -/
theorem rank_le (approximates : graph.Approximates parents) (known : parents.Known block)
    (inhabited : 0 < graph.size) : graph.rank block ≤ parents.size := by
  have below := List.idxOf_lt_length_of_mem (approximates.listed block known)
  have short := length_reversePostorder_le inhabited
  rw [approximates.size, rank]
  omega

/-- An ancestor reaches the block without a detour through lower ranks. -/
theorem ancestor_descends (approximates : graph.Approximates parents)
    (above : parents.Ancestor ancestor block) :
    ∃ visited, graph.Path ancestor visited block ∧
      ∀ between ∈ visited, graph.rank ancestor ≤ graph.rank between := by
  induction above with
  | refl => exact ⟨[ancestor], .single ancestor, by simp⟩
  | @climb parent block up rest inductionHypothesis =>
      obtain ⟨upper, toParent, upperHigh⟩ := inductionHypothesis
      by_cases entry : block = 0
      · subst entry
        obtain rfl : parent = 0 := Option.some.inj (up.symm.trans approximates.entry)
        exact ⟨upper, toParent, upperHigh⟩
      · obtain ⟨lower, toBlock, lowerHigh⟩ := approximates.descends block parent entry up
        refine ⟨_, toParent.append toBlock, fun between member => ?_⟩
        rcases List.mem_append.mp member with first | second
        · exact upperHigh between first
        · have high := lowerHigh between (List.mem_of_mem_tail second)
          have higher := upperHigh parent toParent.target_mem
          omega

/-- Whatever dominates a known block is an ancestor of it. -/
theorem ancestor_of_dominates (approximates : graph.Approximates parents)
    (known : parents.Known block) (dominates : graph.Dominates dominator block) :
    parents.Ancestor dominator block := by
  -- The rank of the parent is lower, and the parent keeps the dominators.
  induction height : graph.rank block using Nat.strongRecOn generalizing block with
  | ind height inductionHypothesis =>
      by_cases same : dominator = block
      · exact same ▸ .refl
      by_cases entry : block = 0
      · subst entry
        have onlyEntry := dominates [0] (.single 0)
        exact absurd (List.mem_singleton.mp onlyEntry) same
      · obtain ⟨parent, up⟩ := known.parent
        have climbs := approximates.climbs block parent entry up
        have kept := approximates.keeps block parent dominator entry up dominates same
        exact .climb up (inductionHypothesis _ (height ▸ climbs.2) climbs.1 kept rfl)

end Approximates

/-! ### The parent that predecessors agree on -/

theorem mem_predecessors {source : Nat} :
    source ∈ graph.predecessors block ↔ source < graph.size ∧ block ∈ graph.successors source := by
  simp only [predecessors, blocks, List.mem_flatMap, List.mem_range, List.mem_map, List.mem_filter,
    decide_eq_true_eq]
  constructor
  · rintro ⟨other, inside, target, ⟨edge, rfl⟩, rfl⟩
    exact ⟨inside, edge⟩
  · rintro ⟨inside, edge⟩
    exact ⟨source, inside, block, ⟨edge, rfl⟩, rfl⟩

/-- The block is the nearest common ancestor of all blocks of a list. -/
structure Agrees (parents : Parents) (sources : List Nat) (agreed : Nat) : Prop where
  known : parents.Known agreed
  above : ∀ source ∈ sources, parents.Ancestor agreed source
  nearest : ∀ ancestor, (∀ source ∈ sources, parents.Ancestor ancestor source) →
    parents.Ancestor ancestor agreed

def agreeWith (rank : Nat → Nat) (parents : Parents) (agreed : Option Nat) (source : Nat) :
    Option Nat :=
  match agreed with
  | none => some source
  | some current => some (parents.meet rank source current)

theorem agreeWith_foldl {rank : Nat → Nat} (ranked : parents.Ranked rank)
    {met sources : List Nat} {current : Nat} (known : ∀ source ∈ sources, parents.Known source)
    (agrees : Agrees parents met current) :
    ∃ agreed, sources.foldl (agreeWith rank parents) (some current) = some agreed ∧
      Agrees parents (met ++ sources) agreed := by
  induction sources generalizing met current with
  | nil => exact ⟨current, rfl, by simpa using agrees⟩
  | cons source rest inductionHypothesis =>
      have meets := ranked.meet_meets (known source List.mem_cons_self) agrees.known
      have next : Agrees parents (met ++ [source]) (parents.meet rank source current) := by
        refine ⟨ranked.known_ancestor meets.right agrees.known, ?_, ?_⟩
        · intro other member
          rcases List.mem_append.mp member with earlier | last
          · exact meets.right.trans (agrees.above other earlier)
          · exact List.mem_singleton.mp last ▸ meets.left
        · intro ancestor above
          refine meets.nearest ancestor (above source (by simp)) (agrees.nearest ancestor ?_)
          exact fun other earlier => above other (List.mem_append_left _ earlier)
      obtain ⟨agreed, folded, result⟩ :=
        inductionHypothesis (fun other member => known other (List.mem_cons_of_mem _ member)) next
      exact ⟨agreed, folded, by simpa using result⟩

/-- With a known predecessor, the known predecessors agree on a parent. -/
theorem agreedParent_agrees {rank : Nat → Nat} {source : Nat} (ranked : parents.Ranked rank)
    (isPredecessor : source ∈ graph.predecessors block) (known : parents.Known source) :
    ∃ agreed, graph.agreedParent rank parents block = some agreed ∧
      Agrees parents ((graph.predecessors block).filter fun source =>
        (parents.parent? source).isSome) agreed := by
  have listed : source ∈ (graph.predecessors block).filter fun source =>
      (parents.parent? source).isSome := List.mem_filter.mpr ⟨isPredecessor, known⟩
  have allKnown : ∀ source ∈ (graph.predecessors block).filter fun source =>
      (parents.parent? source).isSome, parents.Known source :=
    fun source member => (List.mem_filter.mp member).2
  change ∃ agreed, List.foldl (agreeWith rank parents) none _ = some agreed ∧ _
  cases sources : (graph.predecessors block).filter fun source =>
      (parents.parent? source).isSome with
  | nil => simp [sources] at listed
  | cons first rest =>
      rw [sources] at allKnown
      have alone : Agrees parents [first] first :=
        ⟨allKnown first List.mem_cons_self, by simp [Parents.Ancestor.refl], by simp⟩
      exact agreeWith_foldl ranked
        (fun other member => allKnown other (List.mem_cons_of_mem _ member)) alone

/-! ### One refinement -/

theorem parent?_setIfInBounds (inside : block < parents.size) (other : Nat) :
    Parents.parent? (parents.setIfInBounds block (some parent)) other =
      if other = block then some parent else parents.parent? other := by
  simp only [Parents.parent?, Array.getElem?_setIfInBounds]
  by_cases same : block = other
  · subst same
    simp [inside]
  · simp [same, Ne.symm same]

/-- A block that can be refined: it is reached, is not the entry, and a predecessor of lower rank
is known. -/
structure Refinable (graph : Graph) (parents : Parents) (block : Nat) : Prop where
  listed : block ∈ graph.reversePostorder
  notEntry : block ≠ 0
  supported : ∃ source, block ∈ graph.successors source ∧ parents.Known source ∧
    graph.rank source < graph.rank block

/-- Refinement sets the parent to what the known predecessors agree on. -/
theorem refine_eq (approximates : graph.Approximates parents) (inhabited : 0 < graph.size)
    (refinable : graph.Refinable parents block) :
    ∃ agreed, (∀ other, (graph.refine graph.rank parents block).parent? other =
        if other = block then some agreed else parents.parent? other) ∧
      (graph.refine graph.rank parents block).size = parents.size ∧
      Agrees parents ((graph.predecessors block).filter fun source =>
        (parents.parent? source).isSome) agreed := by
  obtain ⟨source, edge, known, lower⟩ := refinable.supported
  have inside := lt_size_of_mem_reversePostorder inhabited (approximates.listed source known)
  obtain ⟨agreed, found, agrees⟩ := agreedParent_agrees (approximates.ranked inhabited)
    (mem_predecessors.mpr ⟨inside, edge⟩) known
  have blockInside : block < parents.size := by
    rw [approximates.size]
    exact lt_size_of_mem_reversePostorder inhabited refinable.listed
  have refined : graph.refine graph.rank parents block =
      parents.setIfInBounds block (some agreed) := by
    rw [refine, found]
  refine ⟨agreed, fun other => ?_, ?_, agrees⟩
  · rw [refined, parent?_setIfInBounds blockInside]
  · rw [refined, Array.size_setIfInBounds]

section Agreed

variable {agreed : Nat} (approximates : graph.Approximates parents) (inhabited : 0 < graph.size)
  (refinable : graph.Refinable parents block)
  (agrees : Agrees parents ((graph.predecessors block).filter fun source =>
    (parents.parent? source).isSome) agreed)

include approximates inhabited refinable agrees

/-- What the known predecessors agree on reaches the block, through the one of lower rank. -/
theorem agreed_descends : graph.rank agreed < graph.rank block ∧
    ∃ visited, graph.Path agreed visited block ∧
      ∀ between ∈ visited, graph.rank agreed ≤ graph.rank between := by
  obtain ⟨source, edge, known, lower⟩ := refinable.supported
  have inside := lt_size_of_mem_reversePostorder inhabited (approximates.listed source known)
  have isSource : source ∈ (graph.predecessors block).filter fun source =>
      (parents.parent? source).isSome :=
    List.mem_filter.mpr ⟨mem_predecessors.mpr ⟨inside, edge⟩, known⟩
  have above := agrees.above source isSource
  have agreedLow := (approximates.ranked inhabited).rank_ancestor_le above
  obtain ⟨through, path, high⟩ := approximates.ancestor_descends above
  refine ⟨Nat.lt_of_le_of_lt agreedLow lower, through ++ [block], path.snoc edge, ?_⟩
  intro between member
  rcases List.mem_append.mp member with earlier | last
  · exact high between earlier
  · rw [List.mem_singleton.mp last]
    omega

/-- What dominates the block from elsewhere dominates what its predecessors agree on. -/
theorem agreed_keeps {dominator : Nat} (dominates : graph.Dominates dominator block)
    (different : dominator ≠ block) : graph.Dominates dominator agreed := by
  have ranked := approximates.ranked inhabited
  obtain ⟨_, through, path, arrives⟩ := agreed_descends approximates inhabited refinable agrees
  have common : ∀ source ∈ (graph.predecessors block).filter fun source =>
      (parents.parent? source).isSome, parents.Ancestor dominator source := by
    intro source member
    obtain ⟨isPredecessor, known⟩ := List.mem_filter.mp member
    exact approximates.ancestor_of_dominates known
      (dominates.predecessor different (mem_predecessors.mp isPredecessor).2)
  have ancestor := agrees.nearest dominator common
  by_cases agreedIt : dominator = agreed
  · exact fun visited path => agreedIt ▸ path.target_mem
  -- A path to the agreed block that avoids the dominator would go on to the block.
  intro visited toAgreed
  have rankApart : graph.rank dominator < graph.rank agreed := by
    have low := ranked.rank_ancestor_le ancestor
    have apart : graph.rank dominator ≠ graph.rank agreed := fun equal => agreedIt
      (ranked.distinct _ _ (ranked.known_ancestor ancestor agrees.known) agrees.known equal)
    omega
  rcases List.mem_append.mp (dominates _ (toAgreed.append path)) with first | second
  · exact first
  · have low := arrives dominator (List.mem_of_mem_tail second)
    omega

end Agreed

theorem refine_approximates (approximates : graph.Approximates parents)
    (inhabited : 0 < graph.size) (refinable : graph.Refinable parents block) :
    graph.Approximates (graph.refine graph.rank parents block) := by
  obtain ⟨agreed, lookup, size, agrees⟩ := refine_eq approximates inhabited refinable
  obtain ⟨lower, descent⟩ := agreed_descends approximates inhabited refinable agrees
  have stillKnown : ∀ other, parents.Known other →
      (graph.refine graph.rank parents block).Known other := by
    intro other known
    rw [Parents.Known, lookup other]
    by_cases same : other = block
    · simp [same]
    · rw [if_neg same]
      exact known
  -- A parent in the refined table is the agreed one of the block, or was there before.
  have parentCases : ∀ {other parent},
      (graph.refine graph.rank parents block).parent? other = some parent →
        (other = block ∧ parent = agreed) ∨ parents.parent? other = some parent := by
    intro other parent up
    rw [lookup other] at up
    by_cases same : other = block
    · rw [if_pos same] at up
      exact .inl ⟨same, (Option.some.inj up).symm⟩
    · rw [if_neg same] at up
      exact .inr up
  refine
    { size := size.trans approximates.size
      entry := by rw [lookup 0, if_neg (Ne.symm refinable.notEntry), approximates.entry]
      listed := ?_
      climbs := ?_
      descends := ?_
      keeps := ?_ }
  · intro other known
    obtain ⟨parent, up⟩ := known.parent
    rcases parentCases up with ⟨rfl, _⟩ | before
    · exact refinable.listed
    · exact approximates.listed other (Option.isSome_iff_exists.mpr ⟨parent, before⟩)
  · intro other parent notEntry up
    rcases parentCases up with ⟨rfl, rfl⟩ | before
    · exact ⟨stillKnown _ agrees.known, lower⟩
    · have climbs := approximates.climbs other parent notEntry before
      exact ⟨stillKnown _ climbs.1, climbs.2⟩
  · intro other parent notEntry up
    rcases parentCases up with ⟨rfl, rfl⟩ | before
    · exact descent
    · exact approximates.descends other parent notEntry before
  · intro other parent dominator notEntry up dominates different
    rcases parentCases up with ⟨rfl, rfl⟩ | before
    · exact agreed_keeps approximates inhabited refinable agrees dominates different
    · exact approximates.keeps other parent dominator notEntry before dominates different

/-! ### Settled paths -/

/-- The parent of the block lies on every path from the entry to it of at most so many edges. -/
def SettledAt (graph : Graph) (parents : Parents) (edges block : Nat) : Prop :=
  ∀ visited, graph.Path 0 visited block → visited.length ≤ edges + 1 →
    ∃ parent, parents.parent? block = some parent ∧ parent ∈ visited

theorem SettledAt.shorter {edges : Nat} (settled : graph.SettledAt parents (edges + 1) block) :
    graph.SettledAt parents edges block :=
  fun visited path short => settled visited path (by omega)

/-- Then so do all ancestors. -/
theorem ancestor_mem_of_settled {edges : Nat} {visited : List Nat}
    (settled : ∀ block, graph.SettledAt parents edges block)
    (above : parents.Ancestor ancestor block) (path : graph.Path 0 visited block)
    (short : visited.length ≤ edges + 1) : ancestor ∈ visited := by
  induction above generalizing visited with
  | refl => exact path.target_mem
  | climb up rest inductionHypothesis =>
      obtain ⟨parent, found, member⟩ := settled _ visited path short
      obtain rfl := Option.some.inj (up.symm.trans found)
      obtain ⟨front, back, rfl, earlier⟩ := path.prefix_to member
      refine List.mem_append_left _ (inductionHypothesis earlier ?_)
      rw [List.length_append] at short
      omega

theorem refine_settled {edges : Nat} (approximates : graph.Approximates parents)
    (inhabited : 0 < graph.size) (refinable : graph.Refinable parents block)
    (settled : ∀ block, graph.SettledAt parents edges block) :
    (∀ other, other ≠ block → ∀ edges, graph.SettledAt parents edges other →
      graph.SettledAt (graph.refine graph.rank parents block) edges other) ∧
    graph.SettledAt (graph.refine graph.rank parents block) (edges + 1) block := by
  obtain ⟨agreed, lookup, _, agrees⟩ := refine_eq approximates inhabited refinable
  constructor
  · intro other different edges settledThere visited path short
    rw [lookup other, if_neg different]
    exact settledThere visited path short
  · intro visited path short
    refine ⟨agreed, by rw [lookup block, if_pos rfl], ?_⟩
    rcases path.last_edge with ⟨entry, _⟩ | ⟨front, source, earlier, edge, rfl⟩
    · exact absurd entry.symm refinable.notEntry
    · have shorter : front.length ≤ edges + 1 := by
        rw [List.length_append, List.length_singleton] at short
        omega
      obtain ⟨parent, up, _⟩ := settled source front earlier shorter
      have inside := earlier.inside inhabited source earlier.target_mem
      have above := agrees.above source (List.mem_filter.mpr
        ⟨mem_predecessors.mpr ⟨inside, edge⟩, Parents.known_of_parent up⟩)
      exact List.mem_append_left _ (ancestor_mem_of_settled settled above earlier shorter)

/-! ### One sweep -/

/-- A sweep half way: the blocks already refined are known and settled one edge further. -/
structure Sweeping (graph : Graph) (parents : Parents) (edges : Nat) (refined : List Nat) :
    Prop where
  approximates : graph.Approximates parents
  settled : ∀ block, graph.SettledAt parents edges block
  known : ∀ block ∈ refined, parents.Known block
  further : ∀ block ∈ refined, graph.SettledAt parents (edges + 1) block

theorem Sweeping.refine {edges : Nat} {refined : List Nat} (inhabited : 0 < graph.size)
    (sweeping : graph.Sweeping parents edges refined)
    (refinable : graph.Refinable parents block) :
    graph.Sweeping (graph.refine graph.rank parents block) edges (refined ++ [block]) := by
  obtain ⟨agreed, lookup, _, _⟩ := refine_eq sweeping.approximates inhabited refinable
  obtain ⟨others, itself⟩ :=
    refine_settled sweeping.approximates inhabited refinable sweeping.settled
  refine
    { approximates := refine_approximates sweeping.approximates inhabited refinable
      settled := ?_
      known := ?_
      further := ?_ }
  · intro other
    by_cases same : other = block
    · exact same ▸ itself.shorter
    · exact others other same edges (sweeping.settled other)
  · intro other member
    rw [Parents.Known, lookup other]
    by_cases same : other = block
    · simp [same]
    · rw [if_neg same]
      rcases List.mem_append.mp member with earlier | last
      · exact sweeping.known other earlier
      · exact absurd (List.mem_singleton.mp last) same
  · intro other member
    by_cases same : other = block
    · exact same ▸ itself
    · rcases List.mem_append.mp member with earlier | last
      · exact others other same (edges + 1) (sweeping.further other earlier)
      · exact absurd (List.mem_singleton.mp last) same

theorem rank_lt_mem_front {front rest : List Nat} {source : Nat}
    (order : graph.reversePostorder = front ++ block :: rest)
    (lower : graph.rank source < graph.rank block) (nodup : graph.reversePostorder.Nodup) :
    source ∈ front := by
  apply Decidable.byContradiction
  intro outside
  have notBefore : block ∉ front := by
    rw [order] at nodup
    exact fun member => (List.nodup_append.mp nodup).2.2 _ member _ List.mem_cons_self rfl
  rw [rank, rank, order, List.idxOf_append_of_notMem outside,
    List.idxOf_append_of_notMem notBefore, List.idxOf_cons_self] at lower
  omega

/-- The block that a sweep comes to next can be refined. -/
theorem Sweeping.refinable {edges : Nat} (inhabited : 0 < graph.size) {front rest : List Nat}
    (order : graph.reversePostorder = 0 :: front ++ block :: rest)
    (sweeping : graph.Sweeping parents edges (0 :: front)) : graph.Refinable parents block := by
  have nodup := nodup_reversePostorder inhabited
  have listed : block ∈ graph.reversePostorder := by rw [order]; simp
  have notEntry : block ≠ 0 := by
    rw [order] at nodup
    exact fun same => (List.nodup_cons.mp nodup).1 (by simp [same])
  obtain ⟨source, _, edge, lower⟩ := lower_predecessor inhabited listed notEntry
  have known := sweeping.known source (rank_lt_mem_front order lower nodup)
  exact ⟨listed, notEntry, source, edge, known, lower⟩

theorem sweep_foldl {edges : Nat} (inhabited : 0 < graph.size) {front rest : List Nat}
    (order : graph.reversePostorder = 0 :: front ++ rest)
    (sweeping : graph.Sweeping parents edges (0 :: front)) :
    graph.Sweeping (rest.foldl (graph.refine graph.rank) parents) edges
      (0 :: front ++ rest) := by
  induction rest generalizing parents front with
  | nil => simpa using sweeping
  | cons block rest inductionHypothesis =>
      have next := sweeping.refine inhabited (sweeping.refinable inhabited order)
      have shifted : graph.reversePostorder = 0 :: (front ++ [block]) ++ rest := by
        rw [order]
        simp
      have result := inductionHypothesis shifted (by simpa using next)
      simpa using result

/-- A sweep starts with the entry done. -/
theorem Approximates.sweeping {edges : Nat} (approximates : graph.Approximates parents)
    (settled : ∀ block, graph.SettledAt parents edges block) :
    graph.Sweeping parents edges [0] := by
  refine ⟨approximates, settled, ?_, ?_⟩
  · intro block member
    rw [List.mem_singleton.mp member]
    exact Parents.known_of_parent approximates.entry
  · intro block member visited path _
    rw [List.mem_singleton.mp member]
    exact ⟨0, approximates.entry, path.source_mem⟩

theorem sweep_settles {edges : Nat} (inhabited : 0 < graph.size)
    (approximates : graph.Approximates parents)
    (settled : ∀ block, graph.SettledAt parents edges block) :
    graph.Approximates (graph.sweep graph.reversePostorder graph.rank parents) ∧
      ∀ block, graph.SettledAt (graph.sweep graph.reversePostorder graph.rank parents)
        (edges + 1) block := by
  have order := reversePostorder_eq_cons inhabited
  have whole : graph.reversePostorder = 0 :: [] ++ graph.reversePostorder.tail := by
    simpa using order
  have swept := sweep_foldl inhabited whole (approximates.sweeping settled)
  refine ⟨swept.approximates, fun block visited path short => ?_⟩
  -- Paths lead only to blocks of the order.
  have listed := (mem_reversePostorder_iff inhabited).mpr ⟨visited, path⟩
  rw [order] at listed
  exact swept.further block (by simpa using listed) visited path short

/-! ### The table at the end -/

theorem settle_eq_iterate (order : List Nat) (rank : Nat → Nat) (budget : Nat)
    (parents : Parents) :
    graph.settle order rank budget parents = (graph.sweep order rank)^[budget] parents := by
  induction budget generalizing parents with
  | zero => rfl
  | succ budget inductionHypothesis =>
      rw [settle, Function.iterate_succ_apply]
      by_cases stable : graph.sweep order rank parents = parents
      · rw [if_pos stable, stable, Function.iterate_fixed stable]
      · rw [if_neg stable, inductionHypothesis]

theorem rootedAtEntry_approximates (inhabited : 0 < graph.size) :
    graph.Approximates graph.rootedAtEntry ∧
      ∀ block, graph.SettledAt graph.rootedAtEntry 0 block := by
  have lookup : ∀ block,
      graph.rootedAtEntry.parent? block = if block = 0 then some 0 else none := by
    intro block
    rw [rootedAtEntry, parent?_setIfInBounds (by simpa using inhabited)]
    by_cases entry : block = 0
    · rw [if_pos entry, if_pos entry]
    · rw [if_neg entry, if_neg entry, Parents.parent?, Array.getElem?_replicate]
      split <;> rfl
  have nowhere : ∀ block parent, block ≠ 0 → graph.rootedAtEntry.parent? block ≠ some parent := by
    intro block parent notEntry
    rw [lookup block, if_neg notEntry]
    exact Option.some_ne_none parent |>.symm
  constructor
  · exact
      { size := by simp [rootedAtEntry]
        entry := by rw [lookup 0, if_pos rfl]
        listed := by
          intro block known
          obtain ⟨parent, up⟩ := known.parent
          have entry : block = 0 := Decidable.byContradiction fun notEntry =>
            nowhere block parent notEntry up
          rw [entry, reversePostorder_eq_cons inhabited]
          exact List.mem_cons_self
        climbs := fun block parent notEntry up => absurd up (nowhere block parent notEntry)
        descends := fun block parent notEntry up => absurd up (nowhere block parent notEntry)
        keeps := fun block parent _ notEntry up => absurd up (nowhere block parent notEntry) }
  · intro block visited path short
    rcases path.last_edge with ⟨entry, _⟩ | ⟨front, source, earlier, _, rfl⟩
    · subst entry
      exact ⟨0, by rw [lookup 0, if_pos rfl], path.source_mem⟩
    · rw [List.length_append, List.length_singleton] at short
      have nonempty := List.length_pos_of_mem earlier.target_mem
      omega

theorem iterate_sweep_settles (inhabited : 0 < graph.size) (sweeps : Nat) :
    graph.Approximates
        ((graph.sweep graph.reversePostorder graph.rank)^[sweeps] graph.rootedAtEntry) ∧
      ∀ block, graph.SettledAt
        ((graph.sweep graph.reversePostorder graph.rank)^[sweeps] graph.rootedAtEntry)
        sweeps block := by
  induction sweeps with
  | zero => exact rootedAtEntry_approximates inhabited
  | succ sweeps inductionHypothesis =>
      rw [Function.iterate_succ_apply']
      exact sweep_settles inhabited inductionHypothesis.1 inductionHypothesis.2

/-- The parent of every block lies on all paths to it. -/
structure Settled (graph : Graph) (parents : Parents) : Prop where
  approximates : graph.Approximates parents
  settled : ∀ block, graph.SettledAt parents graph.size block

theorem dominators_settled (inhabited : 0 < graph.size) : graph.Settled graph.dominators := by
  have more : graph.size ≤ graph.size * graph.size + 2 := by
    have square := Nat.le_mul_self graph.size
    omega
  have result := iterate_sweep_settles inhabited (graph.size * graph.size + 2)
  have same : graph.dominators = (graph.sweep graph.reversePostorder graph.rank)^[
      graph.size * graph.size + 2] graph.rootedAtEntry := settle_eq_iterate _ _ _ _
  rw [same]
  exact ⟨result.1, fun block visited path short => result.2 block visited path (by omega)⟩

theorem Path.short (inhabited : 0 < graph.size) {visited : List Nat}
    (path : graph.Path 0 visited block) :
    ∃ short, graph.Path 0 short block ∧ short.length ≤ graph.size ∧
      ∀ between ∈ short, between ∈ visited := by
  obtain ⟨short, shortPath, nodup, inside⟩ := path.without_loops
  have contained : short ⊆ List.range graph.size := fun between member =>
    List.mem_range.mpr (shortPath.inside inhabited between member)
  exact ⟨short, shortPath, by simpa using (nodup.subperm contained).length_le, inside⟩

namespace Settled

variable (settled : graph.Settled parents) (inhabited : 0 < graph.size)

include settled inhabited

/-- The blocks that the entry reaches are the ones with a parent. -/
theorem known_iff : parents.Known block ↔ graph.Reaches 0 block := by
  constructor
  · intro known
    exact (mem_reversePostorder_iff inhabited).mp (settled.approximates.listed block known)
  · rintro ⟨visited, path⟩
    obtain ⟨short, shortPath, bound, _⟩ := path.short inhabited
    obtain ⟨parent, up, _⟩ := settled.settled block short shortPath (by omega)
    exact Parents.known_of_parent up

/-- Among the blocks that the entry reaches, ancestors are dominators. -/
theorem ancestor_iff (reached : graph.Reaches 0 block) :
    parents.Ancestor ancestor block ↔ graph.Dominates ancestor block := by
  constructor
  · intro above visited path
    obtain ⟨short, shortPath, bound, inside⟩ := path.short inhabited
    exact inside _ (ancestor_mem_of_settled settled.settled above shortPath (by omega))
  · exact settled.approximates.ancestor_of_dominates ((settled.known_iff inhabited).mpr reached)

end Settled

/-- The test on the table answers whether a block dominates one that the entry reaches. -/
theorem dominates_iff (inhabited : 0 < graph.size) (reached : graph.Reaches 0 block) :
    graph.dominators.dominates dominator block = true ↔ graph.Dominates dominator block := by
  have settled := dominators_settled inhabited
  have ranked := settled.approximates.ranked inhabited
  have known : graph.dominators.Known block := (settled.known_iff inhabited).mpr reached
  rw [Parents.dominates, ranked.climbsTo_iff known (settled.approximates.rank_le known inhabited),
    settled.ancestor_iff inhabited reached]

end TypedIR.Flow.Graph
