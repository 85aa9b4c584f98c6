import TypedIR.Check.Structure
import TypedIR.Proofs.Check.WellFormed
import TypedIR.Proofs.Flow.Path

/-!
Contract: walks through the code of a function are paths of its flow graph.

Owns:
- the instructions at a position among the blocks of a function, and the edges of
  the flow graph in their terms;
- from a walk the path of the blocks that it goes through, and from a path a walk;
  what was passed are the instructions of all blocks left behind, then those before
  the point.

Blocks are numbered by their position in the function, as in the flow graph.
-/

namespace TypedIR.Context

open TypedIR.Flow (Graph)

variable {context : Context} {entry : FunctionEntry}

/-- The instructions of the block at a position. -/
def bodyAt (context : Context) (entry : FunctionEntry) (position : Nat) : List ValueRef :=
  (((entry.blocks[position]?).bind context.block?).map fun home => home.instructions).getD []

theorem instructionAt?_eq {block : BlockRef} {position offset : Nat}
    (place : entry.blocks[position]? = some block) :
    context.instructionAt? ⟨block, offset⟩ = (context.bodyAt entry position)[offset]? := by
  unfold instructionAt? bodyAt
  rw [place, Option.bind_some]
  cases context.block? block <;> rfl

theorem bodyAt_eq {block : BlockRef} {home : Block} {position : Nat}
    (place : entry.blocks[position]? = some block) (found : context.block? block = some home) :
    context.bodyAt entry position = home.instructions := by
  rw [bodyAt, place, Option.bind_some, found]
  rfl

theorem BlockFits.bodyAt_fits {block : BlockRef} {position : Nat}
    (fits : context.BlockFits entry block) (place : entry.blocks[position]? = some block) :
    0 < (context.bodyAt entry position).length ∧
      ∀ (offset : Nat) value, (context.bodyAt entry position)[offset]? = some value →
        ∃ code, context.instruction? value = some code ∧ context.InstructionFits entry
          (offset + 1 == (context.bodyAt entry position).length) code := by
  obtain ⟨home, found, inhabited, each⟩ := fits
  rw [bodyAt_eq place found]
  exact ⟨List.length_pos_of_ne_nil inhabited, each⟩

theorem take_append_last {values : List ValueRef} {offset : Nat} {value : ValueRef}
    (here : values[offset]? = some value) (last : values[offset + 1]? = none) :
    values.take offset ++ [value] = values := by
  obtain ⟨inside, same⟩ := List.getElem?_eq_some_iff.mp here
  rw [← same, List.take_append_getElem, List.take_of_length_le (List.getElem?_eq_none_iff.mp last)]

/-! ### Edges -/

theorem idxOf?_eq_some_iff_of_nodup {blocks : List BlockRef} (distinct : blocks.Nodup)
    {block : BlockRef} {position : Nat} :
    blocks.idxOf? block = some position ↔ blocks[position]? = some block := by
  rw [List.idxOf?_eq_some_iff, List.getElem?_eq_some_iff]
  constructor
  · rintro ⟨inside, same, _⟩
    exact ⟨inside, same⟩
  · rintro ⟨inside, same⟩
    refine ⟨inside, same, fun earlier before equal => ?_⟩
    have twice : earlier = position :=
      (List.Nodup.getElem_inj_iff distinct).mp (equal.trans same.symm)
    exact Nat.ne_of_lt before twice

theorem mem_successors (distinct : entry.blocks.Nodup) {source target : Nat}
    (inside : source < entry.blocks.length) :
    target ∈ (context.flowGraph entry).successors source ↔
      ∃ last code block, (context.bodyAt entry source).getLast? = some last ∧
        context.instruction? last = some code ∧ block ∈ code.successors ∧
        entry.blocks[target]? = some block ∧ target ≠ 0 := by
  have place : entry.blocks[source]? = some entry.blocks[source] := List.getElem?_eq_getElem inside
  have edges : (context.flowGraph entry).successors source =
      (context.blockEdges entry entry.blocks[source]).filter
        fun target => target < entry.blocks.length := by
    simp [flowGraph, Graph.ofLists, inside]
  have lastOf : ((context.block? entry.blocks[source]).bind fun home =>
      home.instructions.getLast?) = (context.bodyAt entry source).getLast? := by
    unfold bodyAt
    rw [place, Option.bind_some]
    cases context.block? entry.blocks[source] <;> rfl
  have bounded : ∀ {block : BlockRef}, entry.blocks[target]? = some block →
      target < entry.blocks.length := fun found => (List.getElem?_eq_some_iff.mp found).1
  rw [edges, List.mem_filter, blockEdges, lastOf]
  cases ends : (context.bodyAt entry source).getLast? with
  | none => simp
  | some last =>
      dsimp only
      cases isCode : context.instruction? last with
      | none =>
          refine iff_of_false (fun member => by cases member.1) ?_
          rintro ⟨_, code, _, same, known, _⟩
          rw [← Option.some.inj same, isCode] at known
          cases known
      | some code =>
          simp only [List.mem_filter, List.mem_filterMap, decide_eq_true_eq,
            idxOf?_eq_some_iff_of_nodup distinct]
          constructor
          · rintro ⟨⟨⟨block, successor, found⟩, later⟩, _⟩
            exact ⟨last, code, block, rfl, isCode, successor, found, later⟩
          · rintro ⟨_, _, block, same, known, successor, found, later⟩
            rw [← Option.some.inj same, isCode] at known
            obtain rfl := Option.some.inj known
            exact ⟨⟨⟨block, successor, found⟩, later⟩, bounded found⟩

theorem size_flowGraph : (context.flowGraph entry).size = entry.blocks.length := by
  simp [flowGraph, Graph.ofLists]

section Bodies

variable (distinct : entry.blocks.Nodup)
  (fits : ∀ block ∈ entry.blocks, context.BlockFits entry block)

include distinct fits

/-- A jump from the last instruction of a block is an edge. -/
theorem edge_of_jump {position offset : Nat} {block target : BlockRef} {value : ValueRef}
    {code : Instruction} (place : entry.blocks[position]? = some block)
    (here : (context.bodyAt entry position)[offset]? = some value)
    (last : (context.bodyAt entry position)[offset + 1]? = none)
    (isCode : context.instruction? value = some code) (successor : target ∈ code.successors) :
    ∃ next, entry.blocks[next]? = some target ∧
      next ∈ (context.flowGraph entry).successors position := by
  obtain ⟨inside, _⟩ := List.getElem?_eq_some_iff.mp place
  obtain ⟨_, each⟩ := (fits block (List.mem_of_getElem? place)).bodyAt_fits place
  obtain ⟨found, isFound, rules⟩ := each offset value here
  obtain rfl := Option.some.inj (isFound.symm.trans isCode)
  obtain ⟨member, notFirst⟩ := rules.targets target successor
  obtain ⟨next, nextInside, nextPlace⟩ := List.getElem_of_mem member
  have nextFound : entry.blocks[next]? = some target :=
    List.getElem?_eq_some_iff.mpr ⟨nextInside, nextPlace⟩
  refine ⟨next, nextFound, (mem_successors distinct inside).mpr ?_⟩
  refine ⟨value, found, target, ?_, isFound, successor, nextFound, ?_⟩
  · obtain ⟨offsetInside, _⟩ := List.getElem?_eq_some_iff.mp here
    have ends : (context.bodyAt entry position).length - 1 = offset := by
      have beyond := List.getElem?_eq_none_iff.mp last
      omega
    rw [List.getLast?_eq_getElem?, ends, here]
  · rintro rfl
    rw [← List.head?_eq_getElem?] at nextFound
    exact notFirst nextFound

/-- The path of a walk: its blocks, the current one last. -/
theorem Walk.to_path {visited : List ValueRef} {point : Point}
    (walk : context.Walk entry visited point) :
    ∃ position earlier, entry.blocks[position]? = some point.block ∧
      (context.flowGraph entry).Path 0 (earlier ++ [position]) position ∧
      visited = earlier.flatMap (context.bodyAt entry) ++
        (context.bodyAt entry position).take point.offset ∧
      point.offset < (context.bodyAt entry position).length := by
  induction walk with
  | @start block first =>
      rw [List.head?_eq_getElem?] at first
      have member := List.mem_of_getElem? first
      exact ⟨0, [], first, .single 0, by simp, ((fits block member).bodyAt_fits first).1⟩
  | @step visited point next value walk here step inductionHypothesis =>
      obtain ⟨position, earlier, place, path, rfl, inside⟩ := inductionHypothesis
      cases step with
      | @next block offset following behind =>
          rw [instructionAt?_eq place] at here behind
          obtain ⟨behindInside, _⟩ := List.getElem?_eq_some_iff.mp behind
          refine ⟨position, earlier, place, path, ?_, behindInside⟩
          rw [List.append_assoc, List.take_add_one, here]
          rfl
      | @jump block target offset other code there last isCode successor =>
          obtain rfl := Option.some.inj (here.symm.trans there)
          rw [instructionAt?_eq place] at here last
          obtain ⟨following, nextPlace, edge⟩ :=
            edge_of_jump distinct fits place here last isCode successor
          have member := List.mem_of_getElem? nextPlace
          refine ⟨following, earlier ++ [position], nextPlace, path.snoc edge, ?_,
            ((fits target member).bodyAt_fits nextPlace).1⟩
          simp only [List.append_assoc, take_append_last here last, List.flatMap_append,
            List.flatMap_cons, List.flatMap_nil, List.append_nil, List.take_zero]

omit distinct fits in
/-- A walk goes through a block from its first instruction on. -/
theorem Walk.along {visited : List ValueRef} {block : BlockRef} {position : Nat}
    (place : entry.blocks[position]? = some block)
    (walk : context.Walk entry visited ⟨block, 0⟩) {offset : Nat}
    (inside : offset < (context.bodyAt entry position).length) :
    context.Walk entry (visited ++ (context.bodyAt entry position).take offset)
      ⟨block, offset⟩ := by
  induction offset with
  | zero => simpa using walk
  | succ offset inductionHypothesis =>
      have before := inductionHypothesis (Nat.lt_of_succ_lt inside)
      have here : context.instructionAt? ⟨block, offset⟩ =
          some (context.bodyAt entry position)[offset] := by
        rw [instructionAt?_eq place, List.getElem?_eq_getElem]
      have behind : context.instructionAt? ⟨block, offset + 1⟩ =
          some (context.bodyAt entry position)[offset + 1] := by
        rw [instructionAt?_eq place, List.getElem?_eq_getElem]
      have stepped := before.step here (.next behind)
      rwa [List.append_assoc, List.take_append_getElem] at stepped

/-- A walk to the start of a block goes on along a path from there. -/
theorem Walk.along_path {source target : Nat} {blocks : List Nat}
    (path : (context.flowGraph entry).Path source blocks target) {visited : List ValueRef}
    {block : BlockRef} (place : entry.blocks[source]? = some block)
    (walk : context.Walk entry visited ⟨block, 0⟩) :
    ∃ earlier last, blocks = earlier ++ [target] ∧ entry.blocks[target]? = some last ∧
      context.Walk entry (visited ++ earlier.flatMap (context.bodyAt entry)) ⟨last, 0⟩ := by
  induction path generalizing visited block with
  | single only => exact ⟨[], block, rfl, place, by simpa using walk⟩
  | @cons source next target blocks edge rest inductionHypothesis =>
      obtain ⟨inside, _⟩ := List.getElem?_eq_some_iff.mp place
      obtain ⟨value, code, nextBlock, ends, isCode, successor, nextPlace, _⟩ :=
        (mem_successors distinct inside).mp edge
      obtain ⟨inhabited, _⟩ := (fits block (List.mem_of_getElem? place)).bodyAt_fits place
      obtain ⟨offset, counted⟩ : ∃ offset, (context.bodyAt entry source).length = offset + 1 :=
        ⟨_, (Nat.succ_pred_eq_of_pos inhabited).symm⟩
      rw [List.getLast?_eq_getElem?, counted, Nat.add_sub_cancel] at ends
      have passed := walk.along place (Nat.lt_of_lt_of_eq (Nat.lt_succ_self offset) counted.symm)
      have here : context.instructionAt? ⟨block, offset⟩ = some value := by
        rw [instructionAt?_eq place, ends]
      have last : (context.bodyAt entry source)[offset + 1]? = none :=
        List.getElem?_eq_none (Nat.le_of_eq counted)
      have jumped := passed.step here
        (.jump here ((instructionAt?_eq place).trans last) isCode successor)
      rw [List.append_assoc, take_append_last ends last] at jumped
      obtain ⟨earlier, lastBlock, rfl, lastPlace, walked⟩ := inductionHypothesis nextPlace jumped
      refine ⟨source :: earlier, lastBlock, rfl, lastPlace, ?_⟩
      rwa [List.flatMap_cons, ← List.append_assoc]

/-- Along each path from the first block, there is a walk to each instruction of its last
block. -/
theorem walk_of_path {target offset : Nat} {earlier : List Nat}
    (path : (context.flowGraph entry).Path 0 (earlier ++ [target]) target)
    (inhabited : 0 < entry.blocks.length)
    (inside : offset < (context.bodyAt entry target).length) :
    ∃ block, entry.blocks[target]? = some block ∧
      context.Walk entry (earlier.flatMap (context.bodyAt entry) ++
        (context.bodyAt entry target).take offset) ⟨block, offset⟩ := by
  have first : entry.blocks[0]? = some entry.blocks[0] := List.getElem?_eq_getElem inhabited
  have start : context.Walk entry [] ⟨entry.blocks[0], 0⟩ :=
    .start (by rw [List.head?_eq_getElem?, first])
  obtain ⟨front, block, same, place, walk⟩ := start.along_path distinct fits path first
  obtain ⟨rfl, _⟩ := List.append_inj' same rfl
  rw [List.nil_append] at walk
  exact ⟨block, place, walk.along place inside⟩

end Bodies

end TypedIR.Context
