import TypedIR.Proofs.Check.Uses
import TypedIR.Proofs.Flow.Checked
import TypedIR.Proofs.Ownership.Names
import TypedIR.Proofs.Print.Locals
import TypedIR.Proofs.Print.Summary
import TypedIR.Proofs.Workspace.Queries
import TypedIR.Proofs.Workspace.Types
import TypedIR.Proofs.Workspace.Verification

/-!
Contract: code of reachable workspaces is printed, summarized and checked to its end.

Owns:
- functions of coherent contexts: their own parts are live, the edges of their blocks stay among
  their blocks, and so does the analysis of the flow;
- the queries that print or summarize, which only fail for handles that are not live;
- the names and the check of every live function, which find what they look up;
- the text of a function that has lost a callee and an operand.

A function is read in whatever state it is: unverified, invalid, or with references to released
entries. The check only asks whether these are there.
-/

/-! ## The check -/

namespace TypedIR

/-- The flow analysis has a result with every access checked. -/
structure Flow.Graph.Analyzed (graph : Flow.Graph) : Prop where
  order : graph.reversePostorder? = some graph.reversePostorder
  inside : ∀ block ∈ graph.reversePostorder, block < graph.size
  dominators : graph.dominators? = some graph.dominators
  dominance : ∀ block ∈ graph.reversePostorder, ∀ dominator,
    graph.dominators.dominates? dominator block =
      some (graph.dominators.dominates dominator block)

theorem Flow.Graph.analyzed {graph : Flow.Graph} (inhabited : 0 < graph.size) :
    graph.Analyzed where
  order := reversePostorder?_eq inhabited
  inside := fun _ listed => lt_size_of_mem_reversePostorder inhabited listed
  dominators := dominators?_eq inhabited
  dominance := fun _ listed => dominates?_eq inhabited listed

namespace Context

variable {context : Context} {entry : FunctionEntry}

/-- All that the check of a function looks up in its context is there, and the check ends. -/
structure Checkable (context : Context) (entry : FunctionEntry) : Prop where
  name : Succeeds (context.functionName (context.functionId entry.self))
  personality : ∀ personality, entry.personality = some personality →
    Succeeds (context.resolveFunction (context.functionId personality))
  blocks : ∀ block ∈ entry.blocks, ∃ home,
    context.resolveBlock (context.blockId block) = .ok home ∧
      ∀ value ∈ home.instructions, (context.instruction? value).isSome
  /-- All edges of a block lead to blocks of the function. -/
  edges : ∀ block ∈ entry.blocks, ∀ target ∈ context.blockEdges entry block,
    target < entry.blocks.length
  positions : (context.flowGraph entry).size = entry.blocks.length
  flow : entry.isDefinition = true → (context.flowGraph entry).Analyzed

theorem lt_length_of_blockEdges {block : BlockRef} {target : Nat}
    (member : target ∈ context.blockEdges entry block) : target < entry.blocks.length := by
  unfold blockEdges at member
  split at member
  · cases member
  · split at member
    · cases member
    · obtain ⟨_, _, found⟩ := List.mem_filterMap.mp (List.mem_filter.mp member).1
      exact (List.findIdx?_eq_some_iff_getElem.mp found).1

/-- Every function of a coherent context can be checked. -/
theorem checkable (coherent : context.Coherent) (member : entry ∈ context.functions) :
    context.Checkable entry where
  name := functionName_succeeds coherent.owned ⟨entry, member, rfl⟩
  personality := by
    intro personality target
    have live := coherent.owned.functions.personalities entry member personality target
    obtain ⟨other, found⟩ := Option.isSome_iff_exists.mp (isSome_function?.mpr live)
    exact ⟨other, resolveFunction_eq_ok.mpr ⟨rfl, found⟩⟩
  blocks := by
    intro block listed
    obtain ⟨home, found⟩ := live_block coherent member listed
    refine ⟨home, found, fun value appended => ?_⟩
    obtain ⟨type, code, held⟩ := ((coherent.owned.instructions.lists block home
      (resolveBlock_eq_ok.mp found).2).2 value).mp appended
    exact Option.isSome_iff_exists.mpr ⟨code, instruction?_eq_some.mpr ⟨type, block, held⟩⟩
  edges := fun _ _ _ => lt_length_of_blockEdges
  positions := size_flowGraph
  flow := by
    intro defined
    have nonempty : entry.blocks ≠ [] := by simpa [FunctionEntry.isDefinition] using defined
    exact Flow.Graph.analyzed (size_flowGraph.symm ▸ List.length_pos_of_ne_nil nonempty)

end Context

end TypedIR

/-! ## Reading -/

namespace TypedIR

/-- The query prints or summarizes code. -/
inductive Query.Renders : Query → Prop where
  | module (context : ContextId) : Renders (.moduleText context)
  | function (function : FunctionId) : Renders (.functionText function)
  | summary (context : ContextId) : Renders (.summary context)

/-- What a query that renders code answers in the context that it is about. -/
theorem Query.Renders.succeeds_of_live {settings : Settings} {context : Context} {query : Query}
    (renders : query.Renders) (canonical : context.Canonical settings)
    (coherent : context.Coherent) (live : context.Live query.handle) :
    Succeeds (query.answerIn context) := by
  cases renders with
  | module id =>
      obtain ⟨text, printed⟩ := Context.moduleText_succeeds canonical coherent
      exact ⟨.text text, bind_eq_ok.mpr ⟨text, printed, rfl⟩⟩
  | function function =>
      obtain ⟨home, entry, found⟩ := live
      have member := (Context.mem_of_function? found).1
      obtain ⟨text, printed⟩ := Context.functionText_succeeds canonical coherent member
      exact ⟨.text text, bind_eq_ok.mpr ⟨entry, Context.resolveFunction_eq_ok.mpr ⟨home, found⟩,
        bind_eq_ok.mpr ⟨text, printed, rfl⟩⟩⟩
  | summary id =>
      obtain ⟨summary, collected, _⟩ := Context.summarize_succeeds canonical coherent
      exact ⟨.summary summary, bind_eq_ok.mpr ⟨summary, collected, rfl⟩⟩

theorem Query.Renders.released_of_gone {context : Context} {query : Query}
    (renders : query.Renders) (home : query.handle.tag = context.id)
    (gone : ¬ context.Live query.handle) :
    query.answerIn context = .error (.released query.handle) := by
  cases renders with
  | module id | summary id => exact absurd home gone
  | function function =>
      have missing : context.function? function.index = none := by
        cases found : context.function? function.index with
        | none => rfl
        | some entry => exact absurd ⟨home, entry, found⟩ gone
      have refused :
          context.resolveFunction function = .error (.released (.function function)) := by
        have known : function.context = context.id := home
        unfold Context.resolveFunction
        rw [if_neg (not_not_intro known), missing]
      exact congrArg (· >>= _) refused

namespace Workspace

variable {σ : Type} {engine : Engine σ} {initial : σ} {workspace : Workspace σ}

/-- All code of the workspace can be printed, summarized and checked. -/
structure ReadsThrough (workspace : Workspace σ) : Prop where
  rendered : ∀ query : Query, query.Renders → workspace.store.Live query.handle →
    Succeeds (query.answer workspace.store)
  /-- There is no fault but that the handle, or its context, was released. -/
  refused : ∀ (query : Query) (fault : Fault), query.Renders →
    query.answer workspace.store = .error fault → ¬ workspace.store.Live query.handle ∧
      (fault = .released query.handle ∨ fault = .released (.context query.handle.tag))
  named : ∀ id context, workspace.store.context? id = some context →
    ∀ entry ∈ context.functions, ∃ names,
      context.localNames entry = .ok names ∧ context.NamesLocals entry names
  checkable : ∀ id context, workspace.store.context? id = some context →
    ∀ entry ∈ context.functions, context.Checkable entry
  /-- The reference engine judges by the check. -/
  judged : ∀ id context, workspace.store.context? id = some context →
    ∀ entry ∈ context.functions, ∀ native,
      Engine.reference.verify native workspace.store (context.functionId entry.self) =
        .ofReport (context.functionId entry.self)
          (context.report workspace.store.settings.reportUnreachable entry)

/-- In every reachable workspace, printing, summarizing and checking come to their ends, and only a
handle that is not live makes them fail. -/
theorem reads_through (reachable : Reachable engine initial workspace) :
    ReadsThrough workspace where
  rendered := by
    intro query renders ⟨context, found, live⟩
    obtain ⟨_, coherent⟩ := reachable.coherent found
    obtain ⟨fact, answered⟩ :=
      renders.succeeds_of_live (reachable.canonical found) coherent live
    rw [Query.handle_tag] at found
    exact ⟨fact, bind_eq_ok.mpr ⟨context, Store.resolve_eq_ok.mpr found, answered⟩⟩
  refused := by
    intro query fault renders failed
    cases found : workspace.store.context? query.handle.tag with
    | none =>
        rw [Query.answer_released found] at failed
        refine ⟨fun ⟨context, lookup, _⟩ => ?_, .inr (Except.error.inj failed).symm⟩
        rw [found] at lookup
        cases lookup
    | some context =>
        obtain ⟨sameId, coherent⟩ := reachable.coherent found
        have asked : query.answer workspace.store = query.answerIn context := by
          rw [Query.handle_tag] at found
          exact congrArg (· >>= query.answerIn) (Store.resolve_eq_ok.mpr found)
        rw [asked] at failed
        have gone : ¬ context.Live query.handle := by
          intro live
          obtain ⟨fact, answered⟩ :=
            renders.succeeds_of_live (reachable.canonical found) coherent live
          rw [failed] at answered
          cases answered
        rw [renders.released_of_gone sameId.symm gone] at failed
        refine ⟨fun ⟨other, lookup, live⟩ => ?_, .inl (Except.error.inj failed).symm⟩
        rw [found] at lookup
        exact gone (Option.some.inj lookup ▸ live)
  named := by
    intro id context found entry member
    exact (reachable.coherent found).2.namesLocals member
  checkable := by
    intro id context found entry member
    exact Context.checkable (reachable.coherent found).2 member
  judged := by
    intro id context found entry member native
    obtain ⟨sameId, coherent⟩ := reachable.coherent found
    have live := Context.function?_of_mem coherent.owned.functions.distinct member
    rw [← sameId] at found
    exact congrArg (Judgement.ofReport _) (Store.report_live found rfl live)

/-- The caller of a deleted callee, which adds one of its parameters, is printed to its end. -/
theorem calleeDeletedRun_reads_through :
    ∃ workspace : Workspace ReferenceState,
      workspace = afterAll Engine.reference (start .standard .start) calleeDeletedRun ∧
      ReadsThrough workspace ∧
      (Query.functionText ⟨⟨0, 0⟩, 2⟩).answer workspace.store = .ok (.text <|
        "define i32 @caller(i32 %0) \x7b\nentry:\n  %called = call i32 @<released>(i32 %0)\n" ++
          "  %sum = add <released>, %called\n  ret i32 %sum\n\x7d\n") := by
  refine ⟨_, rfl, reads_through ⟨.standard, calleeDeletedRun, rfl⟩, ?_⟩
  decide +kernel

end Workspace

end TypedIR
