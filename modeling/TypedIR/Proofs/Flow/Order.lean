import Mathlib.Data.List.Nodup
import Mathlib.Data.List.Perm.Subperm
import TypedIR.Flow.Order
import TypedIR.Proofs.Flow.Path

/-!
Contract: what the depth-first walk lists.

Owns:
- the invariant of the walk, one lemma for each of its three steps, and the bound
  on their number;
- the reverse postorder: the blocks that the entry reaches, each once, the entry
  first, every other one behind a predecessor, and an edge against the order only
  where a path closes a loop.

The open blocks, from the entry up, followed by the closed ones are the trail of
the walk. Closing a block leaves the trail as it is, and opening one inserts it
between the two parts, so blocks never change places.
-/

namespace TypedIR.Flow.Graph

variable {graph : Graph} {stack : List (Nat × List Nat)} {seen finished targets : List Nat}
  {block target source : Nat}

def trail (stack : List (Nat × List Nat)) (finished : List Nat) : List Nat :=
  (stack.map Prod.fst).reverse ++ finished

/-- The state of the walk between two steps. -/
structure Walking (graph : Graph) (stack : List (Nat × List Nat)) (seen finished : List Nat) :
    Prop where
  nodup : (trail stack finished).Nodup
  starts : (trail stack finished).head? = some 0
  mem_seen : ∀ block, block ∈ seen ↔ block ∈ trail stack finished
  /-- Every block but the entry was opened from a block that is still before it. -/
  opened : ∀ block ∈ trail stack finished, block ≠ 0 →
    ∃ source, block ∈ graph.successors source ∧ [source, block].Sublist (trail stack finished)
  offered : ∀ entry ∈ stack, ∀ target ∈ entry.2, target ∈ graph.successors entry.1
  pending : ∀ entry ∈ stack, ∀ target ∈ graph.successors entry.1,
    target ∈ entry.2 ∨ target ∈ seen
  closed : ∀ block ∈ finished, ∀ target ∈ graph.successors block, target ∈ seen
  linked : (stack.map Prod.fst).Pairwise fun upper lower => graph.Reaches lower upper
  looping : ∀ block ∈ finished, ∀ target ∈ graph.successors block,
    [block, target].Sublist (trail stack finished) ∨ graph.Reaches target block

theorem trail_close : trail stack (block :: finished) = trail ((block, []) :: stack) finished := by
  simp [trail]

theorem mem_trail :
    block ∈ trail stack finished ↔ block ∈ stack.map Prod.fst ∨ block ∈ finished := by
  simp [trail]

theorem Walking.start : graph.Walking [(0, graph.successors 0)] [0] [] where
  nodup := by simp [trail]
  starts := by simp [trail]
  mem_seen := by simp [trail]
  opened := by simp [trail]
  offered := by simp
  pending := by
    intro entry member target edge
    obtain rfl : entry = (0, graph.successors 0) := by simpa using member
    exact .inl edge
  closed := by simp
  linked := by simp
  looping := by simp

/-- A block is closed when none of its successors is left. -/
theorem Walking.close (walking : graph.Walking ((block, []) :: stack) seen finished) :
    graph.Walking stack seen (block :: finished) := by
  have done : ∀ target ∈ graph.successors block, target ∈ seen := by
    intro target edge
    rcases walking.pending (block, []) List.mem_cons_self target edge with left | met
    · cases left
    · exact met
  have below := List.pairwise_cons.mp walking.linked
  refine
    { nodup := trail_close ▸ walking.nodup
      starts := trail_close ▸ walking.starts
      mem_seen := trail_close ▸ walking.mem_seen
      opened := trail_close ▸ walking.opened
      offered := fun entry member => walking.offered entry (List.mem_cons_of_mem _ member)
      pending := fun entry member => walking.pending entry (List.mem_cons_of_mem _ member)
      closed := ?_
      linked := below.2
      looping := ?_ }
  · intro other member
    rcases List.mem_cons.mp member with rfl | earlier
    · exact done
    · exact walking.closed other earlier
  · intro other member target edge
    rw [trail_close]
    rcases List.mem_cons.mp member with rfl | earlier
    · have met := (walking.mem_seen target).mp (done target edge)
      rcases mem_trail.mp met with opened | closed
      · right
        rcases List.mem_cons.mp opened with rfl | lower
        · exact .refl _
        · exact below.1 target lower
      · left
        rw [← trail_close]
        refine List.Sublist.trans ?_ (List.sublist_append_right _ _)
        exact List.Sublist.cons_cons _ (List.singleton_sublist.mpr closed)
    · exact walking.looping other earlier target edge

/-- A successor that was seen before is passed over. -/
theorem Walking.skip (walking : graph.Walking ((block, target :: targets) :: stack) seen finished)
    (met : target ∈ seen) : graph.Walking ((block, targets) :: stack) seen finished where
  nodup := walking.nodup
  starts := walking.starts
  mem_seen := walking.mem_seen
  opened := walking.opened
  offered := by
    intro entry member
    rcases List.mem_cons.mp member with rfl | lower
    · intro other later
      exact walking.offered _ List.mem_cons_self other (List.mem_cons_of_mem _ later)
    · exact walking.offered entry (List.mem_cons_of_mem _ lower)
  pending := by
    intro entry member
    rcases List.mem_cons.mp member with rfl | lower
    · intro other edge
      rcases walking.pending _ List.mem_cons_self other edge with left | seen
      · rcases List.mem_cons.mp left with rfl | later
        · exact .inr met
        · exact .inl later
      · exact .inr seen
    · exact walking.pending entry (List.mem_cons_of_mem _ lower)
  closed := walking.closed
  linked := walking.linked
  looping := walking.looping

theorem trail_open :
    (trail ((block, targets) :: stack) finished).Sublist
      (trail ((target, graph.successors target) :: (block, targets) :: stack) finished) := by
  simp only [trail, List.map_cons, List.reverse_cons, List.append_assoc, List.singleton_append]
  refine List.Sublist.append_left (List.Sublist.cons_cons _ ?_) _
  exact List.sublist_cons_self _ _

/-- A successor that was not seen before is opened, between the open and the closed blocks. -/
theorem Walking.enter (walking : graph.Walking ((block, target :: targets) :: stack) seen finished)
    (fresh : target ∉ seen) :
    graph.Walking ((target, graph.successors target) :: (block, targets) :: stack)
      (target :: seen) finished := by
  have edge : target ∈ graph.successors block :=
    walking.offered _ List.mem_cons_self target List.mem_cons_self
  have outside : target ∉ trail ((block, targets) :: stack) finished :=
    fun member => fresh ((walking.mem_seen target).mpr member)
  have reordered : (trail ((target, graph.successors target) :: (block, targets) :: stack)
      finished).Perm (target :: trail ((block, targets) :: stack) finished) := by
    simp only [trail, List.map_cons, List.reverse_cons, List.append_assoc, List.singleton_append]
    have moved : ((stack.map Prod.fst).reverse ++ [block] ++ target :: finished).Perm
        (target :: ((stack.map Prod.fst).reverse ++ [block] ++ finished)) := List.perm_middle
    simpa using moved
  refine
    { nodup := reordered.nodup_iff.mpr (List.nodup_cons.mpr ⟨outside, walking.nodup⟩)
      starts := ?_
      mem_seen := ?_
      opened := ?_
      offered := ?_
      pending := ?_
      closed := ?_
      linked := ?_
      looping := ?_ }
  · have starts := walking.starts
    simp only [trail, List.map_cons, List.reverse_cons, List.append_assoc] at starts ⊢
    cases bottom : (stack.map Prod.fst).reverse with
    | nil => simpa [bottom] using starts
    | cons first rest => simpa [bottom] using starts
  · intro other
    rw [List.mem_cons, reordered.mem_iff, List.mem_cons, walking.mem_seen other]
    rfl
  · intro other member notEntry
    rcases List.mem_cons.mp (reordered.mem_iff.mp member) with rfl | earlier
    · refine ⟨block, edge, ?_⟩
      simp only [trail, List.map_cons, List.reverse_cons, List.append_assoc, List.singleton_append]
      refine List.Sublist.trans ?_ (List.sublist_append_right _ _)
      exact List.Sublist.cons_cons _ (List.Sublist.cons_cons _ (List.nil_sublist _))
    · obtain ⟨source, edge, before⟩ := walking.opened other earlier notEntry
      exact ⟨source, edge, before.trans trail_open⟩
  · intro entry member
    rcases List.mem_cons.mp member with rfl | lower
    · exact fun _ offered => offered
    · rcases List.mem_cons.mp lower with rfl | lower
      · intro other later
        exact walking.offered _ List.mem_cons_self other (List.mem_cons_of_mem _ later)
      · exact walking.offered entry (List.mem_cons_of_mem _ lower)
  · intro entry member
    rcases List.mem_cons.mp member with rfl | lower
    · exact fun _ edge => .inl edge
    · rcases List.mem_cons.mp lower with rfl | lower
      · intro other edge
        rcases walking.pending _ List.mem_cons_self other edge with left | met
        · rcases List.mem_cons.mp left with rfl | later
          · exact .inr List.mem_cons_self
          · exact .inl later
        · exact .inr (List.mem_cons_of_mem _ met)
      · intro other edge
        rcases walking.pending entry (List.mem_cons_of_mem _ lower) other edge with left | met
        · exact .inl left
        · exact .inr (List.mem_cons_of_mem _ met)
  · intro other member next edge
    exact List.mem_cons_of_mem _ (walking.closed other member next edge)
  · refine List.pairwise_cons.mpr ⟨?_, walking.linked⟩
    intro lower member
    rcases List.mem_cons.mp member with rfl | deeper
    · exact Reaches.step (.refl _) edge
    · exact ((List.pairwise_cons.mp walking.linked).1 lower deeper).step edge
  · intro other member next edge
    rcases walking.looping other member next edge with after | loop
    · exact .inl (after.trans trail_open)
    · exact .inr loop

/-! ### The bound on the steps -/

/-- One step for each open block and each of its successors still to take, and as much for each
block not seen. -/
def stepsLeft (graph : Graph) (stack : List (Nat × List Nat)) (seen : List Nat) : Nat :=
  (stack.flatMap fun entry => entry.1 :: entry.2).length +
    ((graph.blocks.filter fun block => block ∉ seen).flatMap fun block =>
      block :: graph.successors block).length

theorem stepsLeft_enter (stack : List (Nat × List Nat)) (block : Nat) (targets : List Nat)
    (inside : target < graph.size) (fresh : target ∉ seen) :
    graph.stepsLeft ((target, graph.successors target) :: (block, targets) :: stack)
        (target :: seen) + 1 =
      graph.stepsLeft ((block, target :: targets) :: stack) seen := by
  have unseen : target ∈ graph.blocks.filter fun block => block ∉ seen := by
    simp [blocks, inside, fresh]
  have removed : (graph.blocks.filter fun block => block ∉ seen).erase target =
      graph.blocks.filter fun block => block ∉ target :: seen := by
    rw [blocks, (List.nodup_range.filter _).erase_eq_filter, List.filter_filter]
    apply List.filter_congr
    intro other _
    by_cases same : other = target <;> simp [same]
  have lengths := ((List.perm_cons_erase unseen).flatMap_right
    fun block => block :: graph.successors block).length_eq
  rw [removed] at lengths
  simp only [stepsLeft, List.flatMap_cons, List.length_append, List.length_cons] at lengths ⊢
  omega

theorem stepsLeft_start (inhabited : 0 < graph.size) :
    graph.stepsLeft [(0, graph.successors 0)] [0] < graph.walkSteps := by
  have unseen : 0 ∈ graph.blocks := by simp [blocks, inhabited]
  have removed : graph.blocks.erase 0 = graph.blocks.filter fun block => block ∉ [0] := by
    rw [blocks, List.nodup_range.erase_eq_filter]
    apply List.filter_congr
    intro other _
    by_cases same : other = 0 <;> simp [same]
  have lengths := ((List.perm_cons_erase unseen).flatMap_right
    fun block => block :: graph.successors block).length_eq
  have total : ∀ blocks : List Nat,
      (blocks.flatMap fun block => block :: graph.successors block).length =
        (blocks.flatMap graph.successors).length + blocks.length := by
    intro blocks
    induction blocks with
    | nil => rfl
    | cons first rest inductionHypothesis =>
        simp only [List.flatMap_cons, List.length_append, List.length_cons, inductionHypothesis]
        omega
  rw [removed, total graph.blocks] at lengths
  simp only [stepsLeft, walkSteps, List.flatMap_cons, List.flatMap_nil, List.length_append,
    List.length_cons, List.length_nil] at lengths ⊢
  omega

/-! ### The order -/

/-- With enough steps, the walk ends with no block open. -/
theorem walk_finishes {budget : Nat} (walking : graph.Walking stack seen finished)
    (enough : graph.stepsLeft stack seen < budget) :
    ∃ known, graph.Walking [] known (graph.walk budget stack seen finished) := by
  induction budget generalizing stack seen finished with
  | zero => omega
  | succ budget inductionHypothesis =>
      rcases stack with _ | ⟨⟨block, targets⟩, stack⟩
      · exact ⟨seen, by simpa [walk] using walking⟩
      rcases targets with _ | ⟨target, targets⟩
      · rw [walk]
        apply inductionHypothesis walking.close
        simp only [stepsLeft, List.flatMap_cons, List.length_append, List.length_cons] at enough ⊢
        omega
      · rw [walk]
        by_cases met : target ∈ seen
        · rw [if_pos met]
          apply inductionHypothesis (walking.skip met)
          simp only [stepsLeft, List.flatMap_cons, List.length_append, List.length_cons]
            at enough ⊢
          omega
        · rw [if_neg met]
          apply inductionHypothesis (walking.enter met)
          have edge := walking.offered _ List.mem_cons_self target List.mem_cons_self
          have counted := stepsLeft_enter stack block targets (graph.closed block target edge) met
          omega

theorem reversePostorder_finished (inhabited : 0 < graph.size) :
    ∃ known, graph.Walking [] known graph.reversePostorder := by
  rw [reversePostorder, if_neg (Nat.ne_of_gt inhabited)]
  exact walk_finishes .start (stepsLeft_start inhabited)

theorem nodup_reversePostorder (inhabited : 0 < graph.size) : graph.reversePostorder.Nodup := by
  obtain ⟨seen, walking⟩ := reversePostorder_finished inhabited
  exact walking.nodup

theorem reversePostorder_eq_cons (inhabited : 0 < graph.size) :
    graph.reversePostorder = 0 :: graph.reversePostorder.tail := by
  obtain ⟨seen, walking⟩ := reversePostorder_finished inhabited
  have starts : graph.reversePostorder.head? = some 0 := walking.starts
  cases order : graph.reversePostorder with
  | nil => simp [order] at starts
  | cons first rest => simpa [order] using starts

/-- Every listed block but the entry stands behind one of its predecessors. -/
theorem predecessor_before (inhabited : 0 < graph.size) (listed : block ∈ graph.reversePostorder)
    (notEntry : block ≠ 0) :
    ∃ source, block ∈ graph.successors source ∧ [source, block].Sublist graph.reversePostorder := by
  obtain ⟨seen, walking⟩ := reversePostorder_finished inhabited
  exact walking.opened block listed notEntry

theorem mem_reversePostorder_of_edge (inhabited : 0 < graph.size)
    (listed : source ∈ graph.reversePostorder) (edge : target ∈ graph.successors source) :
    target ∈ graph.reversePostorder := by
  obtain ⟨seen, walking⟩ := reversePostorder_finished inhabited
  exact (walking.mem_seen target).mp (walking.closed source listed target edge)

/-- An edge leads forward in the order, or its target reaches its source. -/
theorem edge_forward_or_loop (inhabited : 0 < graph.size)
    (listed : source ∈ graph.reversePostorder) (edge : target ∈ graph.successors source) :
    [source, target].Sublist graph.reversePostorder ∨ graph.Reaches target source := by
  obtain ⟨seen, walking⟩ := reversePostorder_finished inhabited
  exact walking.looping source listed target edge

/-! ### Ranks -/

theorem idxOf_lt_of_sublist {order : List Nat} {before after : Nat} (nodup : order.Nodup)
    (sublist : [before, after].Sublist order) : order.idxOf before < order.idxOf after := by
  induction order with
  | nil => cases sublist
  | cons first rest inductionHypothesis =>
      obtain ⟨notLater, nodup⟩ := List.nodup_cons.mp nodup
      cases sublist with
      | cons _ sublist =>
          have later : before ∈ rest := sublist.subset List.mem_cons_self
          have latest : after ∈ rest := sublist.subset (by simp)
          have apart : before ≠ first := fun same => notLater (same ▸ later)
          have apartAfter : after ≠ first := fun same => notLater (same ▸ latest)
          rw [List.idxOf_cons_ne _ (Ne.symm apart), List.idxOf_cons_ne _ (Ne.symm apartAfter)]
          have smaller := inductionHypothesis nodup sublist
          omega
      | cons_cons _ sublist =>
          have later : after ∈ rest := sublist.subset List.mem_cons_self
          have apart : after ≠ before := fun same => notLater (same ▸ later)
          rw [List.idxOf_cons_self, List.idxOf_cons_ne _ (Ne.symm apart)]
          omega

/-- The position of a block in the reverse postorder. -/
def rank (graph : Graph) (block : Nat) : Nat := graph.reversePostorder.idxOf block

theorem rank_entry (inhabited : 0 < graph.size) : graph.rank 0 = 0 := by
  rw [rank, reversePostorder_eq_cons inhabited, List.idxOf_cons_self]

theorem rank_injective {left right : Nat} (listed : left ∈ graph.reversePostorder)
    (same : graph.rank left = graph.rank right) : left = right :=
  (List.idxOf_inj listed).mp same

/-- Every block that the entry reaches, but the entry itself, has a predecessor of lower rank. -/
theorem lower_predecessor (inhabited : 0 < graph.size) (listed : block ∈ graph.reversePostorder)
    (notEntry : block ≠ 0) :
    ∃ source ∈ graph.reversePostorder,
      block ∈ graph.successors source ∧ graph.rank source < graph.rank block := by
  obtain ⟨source, edge, sublist⟩ := predecessor_before inhabited listed notEntry
  exact ⟨source, sublist.subset (by simp), edge,
    idxOf_lt_of_sublist (nodup_reversePostorder inhabited) sublist⟩

/-- The reverse postorder lists what the entry reaches. -/
theorem mem_reversePostorder_iff (inhabited : 0 < graph.size) :
    block ∈ graph.reversePostorder ↔ graph.Reaches 0 block := by
  constructor
  · intro listed
    -- Predecessors of ever lower rank lead back to the entry.
    induction height : graph.rank block using Nat.strongRecOn generalizing block with
    | ind height inductionHypothesis =>
        by_cases entry : block = 0
        · subst entry
          exact .refl 0
        · obtain ⟨source, earlier, edge, lower⟩ := lower_predecessor inhabited listed entry
          exact (inductionHypothesis _ (height ▸ lower) earlier rfl).step edge
  · rintro ⟨visited, path⟩
    have entry : 0 ∈ graph.reversePostorder := by
      rw [reversePostorder_eq_cons inhabited]
      exact List.mem_cons_self
    generalize 0 = source at path entry
    induction path with
    | single => exact entry
    | cons edge rest inductionHypothesis =>
        exact inductionHypothesis (mem_reversePostorder_of_edge inhabited entry edge)

theorem lt_size_of_mem_reversePostorder (inhabited : 0 < graph.size)
    (listed : block ∈ graph.reversePostorder) : block < graph.size :=
  ((mem_reversePostorder_iff inhabited).mp listed).inside inhabited

theorem length_reversePostorder_le (inhabited : 0 < graph.size) :
    graph.reversePostorder.length ≤ graph.size := by
  have contained : graph.reversePostorder ⊆ List.range graph.size := fun block listed =>
    List.mem_range.mpr (lt_size_of_mem_reversePostorder inhabited listed)
  simpa using ((nodup_reversePostorder inhabited).subperm contained).length_le

end TypedIR.Flow.Graph
