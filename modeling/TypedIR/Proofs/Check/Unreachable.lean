import Mathlib.Data.List.Range
import Mathlib.Logic.Relation
import TypedIR.Proofs.Check.Findings
import TypedIR.Proofs.Check.Paths

/-!
Contract: the warnings of the check.

Owns:
- flow from block to block, stated without positions, and the blocks that it reaches from the
  first one;
- the findings of the check in three parts, of which the switch for warnings governs the middle;
- the warnings of a report, one for each block that is not reached, in block order, and its errors,
  which do not depend on the switch.

The flow graph is a by-product of blocks that may be malformed: a block that is empty, or whose last
instruction is released or no terminator, has no edges, and targets that are the first block or no
block of the function are left out.
-/

namespace TypedIR.Context

open Relation (ReflTransGen)

variable {context : Context} {entry : FunctionEntry} {reportUnreachable : Bool}

/-! ### Flow -/

/-- The last instruction of the first block names the second one, which is a block of the function
other than its first. -/
def FlowsTo (context : Context) (entry : FunctionEntry) (source target : BlockRef) : Prop :=
  ∃ home last code, context.block? source = some home ∧
    home.instructions.getLast? = some last ∧ context.instruction? last = some code ∧
    target ∈ code.successors ∧ target ∈ entry.blocks ∧ entry.blocks.head? ≠ some target

/-- Some path of such steps leads from the first block of the function to the block. -/
def Reached (context : Context) (entry : FunctionEntry) (block : BlockRef) : Prop :=
  ∃ first, entry.blocks.head? = some first ∧ ReflTransGen (context.FlowsTo entry) first block

/-- Flow between blocks is what the edges between their positions say. -/
theorem mem_successors_iff_flowsTo (distinct : entry.blocks.Nodup) {source target : BlockRef}
    {position next : Nat} (place : entry.blocks[position]? = some source)
    (nextPlace : entry.blocks[next]? = some target) :
    next ∈ (context.flowGraph entry).successors position ↔ context.FlowsTo entry source target := by
  obtain ⟨inside, _⟩ := List.getElem?_eq_some_iff.mp place
  have first : next = 0 ↔ entry.blocks.head? = some target := by
    rw [List.head?_eq_getElem?, ← nextPlace]
    constructor
    · rintro rfl
      rfl
    · intro same
      obtain ⟨nextInside, _⟩ := List.getElem?_eq_some_iff.mp nextPlace
      exact (List.getElem?_inj nextInside distinct).mp same.symm
  rw [mem_successors distinct inside]
  constructor
  · rintro ⟨last, code, block, ends, isCode, successor, found, notFirst⟩
    obtain rfl := Option.some.inj (found.symm.trans nextPlace)
    cases known : context.block? source with
    | none =>
        rw [bodyAt, place, Option.bind_some, known] at ends
        cases ends
    | some home =>
        rw [bodyAt_eq place known] at ends
        exact ⟨home, last, code, known, ends, isCode, successor, List.mem_of_getElem? found,
          fun same => notFirst (first.mpr same)⟩
  · rintro ⟨home, last, code, known, ends, isCode, successor, _, notFirst⟩
    rw [← bodyAt_eq place known] at ends
    exact ⟨last, code, target, ends, isCode, successor, nextPlace,
      fun same => notFirst (first.mp same)⟩

section Positions

variable (distinct : entry.blocks.Nodup)

include distinct

theorem flow_of_path {source target : Nat} {visited : List Nat}
    (path : (context.flowGraph entry).Path source visited target) {first : BlockRef}
    (place : entry.blocks[source]? = some first) :
    ∃ last, entry.blocks[target]? = some last ∧
      ReflTransGen (context.FlowsTo entry) first last := by
  induction path generalizing first with
  | single only => exact ⟨first, place, .refl⟩
  | @cons source next target visited edge rest inductionHypothesis =>
      obtain ⟨inside, _⟩ := List.getElem?_eq_some_iff.mp place
      obtain ⟨_, _, middle, _, _, _, nextPlace, _⟩ := (mem_successors distinct inside).mp edge
      obtain ⟨last, lastPlace, flow⟩ := inductionHypothesis nextPlace
      have step := (mem_successors_iff_flowsTo distinct place nextPlace).mp edge
      exact ⟨last, lastPlace, flow.head step⟩

theorem reaches_of_flow {first last : BlockRef} (start : entry.blocks[0]? = some first)
    (flow : ReflTransGen (context.FlowsTo entry) first last) :
    ∃ position, entry.blocks[position]? = some last ∧
      (context.flowGraph entry).Reaches 0 position := by
  induction flow with
  | refl => exact ⟨0, start, .refl 0⟩
  | @tail middle last earlier step inductionHypothesis =>
      obtain ⟨position, place, reached⟩ := inductionHypothesis
      have member : last ∈ entry.blocks := by
        obtain ⟨_, _, _, _, _, _, _, listed, _⟩ := step
        exact listed
      obtain ⟨next, nextInside, nextSame⟩ := List.getElem_of_mem member
      have nextPlace := List.getElem?_eq_some_iff.mpr ⟨nextInside, nextSame⟩
      have edge := (mem_successors_iff_flowsTo distinct place nextPlace).mpr step
      exact ⟨next, nextPlace, reached.step edge⟩

/-- The blocks reached are those at the positions that the first one reaches in the flow graph. -/
theorem reaches_iff_reached {block : BlockRef} {position : Nat}
    (place : entry.blocks[position]? = some block) :
    (context.flowGraph entry).Reaches 0 position ↔ context.Reached entry block := by
  obtain ⟨inside, _⟩ := List.getElem?_eq_some_iff.mp place
  have start : entry.blocks[0]? = some entry.blocks[0] :=
    List.getElem?_eq_getElem (Nat.zero_lt_of_lt inside)
  constructor
  · rintro ⟨visited, path⟩
    obtain ⟨last, lastPlace, flow⟩ := flow_of_path distinct path start
    obtain rfl := Option.some.inj (lastPlace.symm.trans place)
    exact ⟨entry.blocks[0], List.head?_eq_getElem?.trans start, flow⟩
  · rintro ⟨first, leads, flow⟩
    obtain ⟨other, otherPlace, reached⟩ :=
      reaches_of_flow distinct (List.head?_eq_getElem?.symm.trans leads) flow
    obtain rfl : position = other :=
      (List.getElem?_inj inside distinct).mp (place.trans otherPlace.symm)
    exact reached

end Positions

/-! ### The parts of the check -/

/-- The warning about a block. -/
def unreachableFinding (block : BlockRef) : Finding := ⟨.unreachableBlock, .block block⟩

/-- The blocks whose positions are not in the order of the walk, in block order. -/
def blocksOutside (entry : FunctionEntry) (order : List Nat) : List BlockRef :=
  ((List.range entry.blocks.length).filter fun position => position ∉ order).filterMap
    fun position => entry.blocks[position]?

theorem unreachableFindings_eq_map (order : List Nat) :
    unreachableFindings entry order = (blocksOutside entry order).map unreachableFinding := by
  rw [blocksOutside, List.map_filterMap]
  rfl

theorem blocksOutside_sublist (order : List Nat) :
    (blocksOutside entry order).Sublist entry.blocks := by
  have each : (List.range entry.blocks.length).map (fun position => entry.blocks[position]?) =
      entry.blocks.map some := by
    apply List.ext_getElem
    · simp
    · intro position _ inside
      simp
  have whole : ((List.range entry.blocks.length).filterMap
      fun position => entry.blocks[position]?) = entry.blocks := by
    calc ((List.range entry.blocks.length).filterMap fun position => entry.blocks[position]?)
        = ((List.range entry.blocks.length).map fun position => entry.blocks[position]?).filterMap
            fun found => found := by rw [List.filterMap_map]; rfl
      _ = (entry.blocks.map some).filterMap fun found => found := by rw [each]
      _ = entry.blocks := by simp
  have part : (blocksOutside entry order).Sublist
      ((List.range entry.blocks.length).filterMap fun position => entry.blocks[position]?) :=
    List.filter_sublist.filterMap _
  rwa [whole] at part

theorem mem_blocksOutside {order : List Nat} (distinct : entry.blocks.Nodup) {block : BlockRef}
    {position : Nat} (place : entry.blocks[position]? = some block) :
    block ∈ blocksOutside entry order ↔ position ∉ order := by
  obtain ⟨inside, _⟩ := List.getElem?_eq_some_iff.mp place
  simp only [blocksOutside, List.mem_filterMap, List.mem_filter, List.mem_range,
    decide_eq_true_eq]
  constructor
  · rintro ⟨other, ⟨_, outside⟩, otherPlace⟩
    obtain rfl : position = other :=
      (List.getElem?_inj inside distinct).mp (place.trans otherPlace.symm)
    exact outside
  · intro outside
    exact ⟨position, ⟨inside, outside⟩, place⟩

/-- The switch only governs the findings in the middle, and all others are errors. -/
theorem findings_eq_parts (context : Context) (entry : FunctionEntry) :
    ∃ front back : List Finding,
      (∀ finding ∈ front ++ back, finding.violation ≠ .unreachableBlock) ∧
      ∀ reportUnreachable, context.findings reportUnreachable entry =
        front ++ (if reportUnreachable then
          (blocksOutside entry (context.flowGraph entry).reversePostorder).map unreachableFinding
          else []) ++ back := by
  have attributes : ∀ finding ∈ entry.attributes.entries.flatMap attributeFindings,
      finding.violation ≠ .unreachableBlock := by
    intro finding member
    obtain ⟨attached, _, listed⟩ := List.mem_flatMap.mp member
    exact (attributeFindings_plain finding listed).1.1
  have personality : ∀ finding ∈ context.personalityFindings entry,
      finding.violation ≠ .unreachableBlock :=
    fun finding listed => (personalityFindings_plain finding listed).1.1
  have blocks : ∀ finding ∈ entry.blocks.flatMap (context.blockFindings entry),
      finding.violation ≠ .unreachableBlock := by
    intro finding member
    obtain ⟨block, _, listed⟩ := List.mem_flatMap.mp member
    exact (blockFindings_plain finding listed).1.1
  have uses : ∀ finding ∈ (context.flowGraph entry).reversePostorder.flatMap
      (context.dominanceFindings entry (context.flowGraph entry).dominators),
      finding.violation ≠ .unreachableBlock := by
    intro finding member
    obtain ⟨position, _, listed⟩ := List.mem_flatMap.mp member
    exact dominanceFindings_errors finding listed
  by_cases defined : entry.isDefinition = true
  · refine ⟨entry.attributes.entries.flatMap attributeFindings ++
      context.personalityFindings entry ++ entry.blocks.flatMap (context.blockFindings entry),
      (context.flowGraph entry).reversePostorder.flatMap
        (context.dominanceFindings entry (context.flowGraph entry).dominators), ?_, ?_⟩
    · simp only [List.forall_mem_append]
      exact ⟨⟨⟨attributes, personality⟩, blocks⟩, uses⟩
    · intro reportUnreachable
      rw [findings, if_pos defined, bodyFindings, ← unreachableFindings_eq_map]
      simp only [List.append_assoc]
  · have empty : entry.blocks = [] := by
      simpa [FunctionEntry.isDefinition] using defined
    refine ⟨entry.attributes.entries.flatMap attributeFindings ++
      context.personalityFindings entry, [], ?_, ?_⟩
    · simp only [List.append_nil, List.forall_mem_append]
      exact ⟨attributes, personality⟩
    · intro reportUnreachable
      rw [findings, if_neg defined]
      simp [blocksOutside, empty]

/-! ### Warnings and errors -/

/-- The warning about a block, as it is reported. -/
def unreachableWarning (context : Context) (entry : FunctionEntry) (block : BlockRef) :
    Diagnostic where
  severity := .warning
  message := "block is unreachable from the entry block"
  location := context.symbolInMessages entry ++ "/" ++ context.blockText block
  notes := []

theorem warning_iff {finding : Finding} :
    (context.diagnostic entry finding).severity = .warning ↔
      finding.violation = .unreachableBlock := by
  obtain ⟨violation, place⟩ := finding
  cases violation <;> simp [diagnostic, Violation.severity]

/-- The severity of what is found sorts it into errors and warnings. -/
theorem report_sorted (context : Context) (reportUnreachable : Bool) (entry : FunctionEntry) :
    ((context.report reportUnreachable entry).warnings = if reportUnreachable then
        (blocksOutside entry (context.flowGraph entry).reversePostorder).map
          (context.unreachableWarning entry) else []) ∧
      (context.report reportUnreachable entry).errors = (context.report false entry).errors := by
  obtain ⟨front, back, errors, parts⟩ := context.findings_eq_parts entry
  rw [List.forall_mem_append] at errors
  have silent : ∀ findings : List Finding,
      (∀ finding ∈ findings, finding.violation ≠ .unreachableBlock) →
        (findings.map (context.diagnostic entry)).filter (fun found => found.severity = .warning) =
          [] := by
    intro findings each
    simp only [List.filter_eq_nil_iff, List.forall_mem_map, decide_eq_true_eq, warning_iff]
    exact each
  have warned : ∀ blocks : List BlockRef,
      ((blocks.map unreachableFinding).map (context.diagnostic entry)) =
        blocks.map (context.unreachableWarning entry) := by
    intro blocks
    rw [List.map_map]
    rfl
  constructor
  · rw [Report.warnings, report, parts]
    simp only [List.map_append, List.filter_append, silent front errors.1, silent back errors.2]
    cases reportUnreachable with
    | false => rfl
    | true => simp [warned, unreachableWarning]
  · rw [Report.errors, Report.errors, report, report, parts, parts]
    cases reportUnreachable with
    | false => rfl
    | true => simp [warned, unreachableWarning]

/-- The blocks warned about are those that no path reaches, in block order, each once. -/
theorem blocksOutside_exact (owned : context.Owned) (member : entry ∈ context.functions) :
    (blocksOutside entry (context.flowGraph entry).reversePostorder).Sublist entry.blocks ∧
      (blocksOutside entry (context.flowGraph entry).reversePostorder).Nodup ∧
      ∀ block, block ∈ blocksOutside entry (context.flowGraph entry).reversePostorder ↔
        block ∈ entry.blocks ∧ ¬ context.Reached entry block := by
  have distinct := blocks_nodup owned member
  have part := @blocksOutside_sublist entry (context.flowGraph entry).reversePostorder
  have outside : ∀ block ∈ entry.blocks,
      block ∈ blocksOutside entry (context.flowGraph entry).reversePostorder ↔
        ¬ context.Reached entry block := by
    intro block listed
    obtain ⟨position, inside, same⟩ := List.getElem_of_mem listed
    have place := List.getElem?_eq_some_iff.mpr ⟨inside, same⟩
    have inhabited : 0 < (context.flowGraph entry).size := by
      rw [size_flowGraph]
      exact Nat.zero_lt_of_lt inside
    rw [mem_blocksOutside distinct place, Flow.Graph.mem_reversePostorder_iff inhabited,
      reaches_iff_reached distinct place]
  refine ⟨part, part.nodup distinct, fun block => ?_⟩
  constructor
  · intro warned
    have listed := part.subset warned
    exact ⟨listed, (outside block listed).mp warned⟩
  · rintro ⟨listed, unreached⟩
    exact (outside block listed).mpr unreached

end TypedIR.Context
