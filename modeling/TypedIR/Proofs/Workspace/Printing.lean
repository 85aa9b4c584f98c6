import TypedIR.Proofs.Print.Mentions
import TypedIR.Proofs.Print.Symbols
import TypedIR.Proofs.Workspace.Constants
import TypedIR.Proofs.Workspace.Names
import TypedIR.Proofs.Workspace.Verification

/-!
Contract: the names in printed functions, in every reachable workspace.

Owns:
- what the symbols of a live context tell apart, in the lines of functions, in calls and behind
  personalities;
- at all times the locals of a live function have different names, and a definition that the
  reference engine accepts is printed with these names and without any mark.

Declarations and renames keep the names of functions apart and take no account of positions, so
two functions may be printed under one symbol.
-/

namespace TypedIR.Workspace

variable {σ : Type} {engine : Engine σ} {initial : σ} {workspace : Workspace σ} {id : ContextId}
  {context : Context}

/-- What the symbols of a context tell apart. -/
structure SymbolsTold (context : Context) : Prop where
  /-- Different functions share a symbol exactly if one of them has no name and its position is the
  name of the other. -/
  shared : ∀ first second, context.IsFunction first → context.IsFunction second → first ≠ second →
    (context.symbol first = context.symbol second ↔
      context.Shadows first second ∨ context.Shadows second first)
  /-- Where no function does so with it, a live function is the only one under its symbol. -/
  line : ∀ function, context.IsFunction function →
    (context.headSymbols.count (context.symbol function) = 1 ↔
      ∀ other, ¬ context.Shadows function other ∧ ¬ context.Shadows other function)
  /-- The lines of the printed module carry these symbols in this order, and those of their
  personalities. -/
  printed : ∀ text, context.moduleText = .ok text → ∃ texts,
    text = texts.foldl (fun text function => text ++ "\n" ++ function)
      ("; ModuleID = '" ++ context.moduleName ++ "'\nsource_filename = \"" ++
        context.moduleName ++ "\"\n") ∧
    List.Forall₂ (fun entry text => context.HeadedBy entry text) context.functions texts
  /-- A call is printed with the symbol of its callee. -/
  call : ∀ names type callee arguments text,
    context.callText names type callee arguments = .ok text → ∃ front inner,
      text = "call " ++ front ++ " " ++ context.symbol callee ++ "(" ++ inner ++ ")"

/-- The first function has no name, and the second one is called as the position of the first. -/
def shadowedRun : List Command :=
  let context : ContextId := ⟨0, 0⟩
  [.createContext "m",
    .edit (.voidType context),
    .edit (.signatureType ⟨context, 0⟩ [] false),
    .edit (.declare context "" ⟨context, 1⟩),
    .edit (.declare context "0" ⟨context, 1⟩)]

theorem symbols_told (reachable : Reachable engine initial workspace)
    (found : workspace.store.context? id = some context) : SymbolsTold context := by
  have owned := (reachable.coherent found).2.owned.functions
  have distinct := reachable.distinctNames found
  refine ⟨fun first second => Context.symbol_eq_iff owned distinct,
    fun function => Context.count_headSymbols owned distinct, fun text done => ?_,
    fun names type callee arguments text => Context.callText_symbol⟩
  obtain ⟨texts, each, printed⟩ := bind_eq_ok.mp done
  obtain rfl := pure_eq_ok.mp printed
  exact ⟨texts, rfl, (mapM_eq_ok.mp each).imp fun _ _ => Context.functionText_headed⟩

/-- Both functions of the run are printed as the same one. -/
theorem shadowedRun_shared :
    ∃ context, (afterAll Engine.reference (start .standard .start) shadowedRun).store.context?
        ⟨0, 0⟩ = some context ∧
      (context.function? 0).isSome ∧ (context.function? 1).isSome ∧
      context.symbol 0 = context.symbol 1 ∧
      context.moduleText = .ok ("; ModuleID = 'm'\nsource_filename = \"m\"\n" ++
        "\ndeclare void @0()\n" ++ "\ndeclare void @0()\n") := by
  have seen : ((afterAll Engine.reference (start .standard .start) shadowedRun).store.context?
      ⟨0, 0⟩).map (fun context => ((context.function? 0).isSome, (context.function? 1).isSome,
        context.symbol 0, context.symbol 1, context.moduleText)) =
      some (true, true, "@0", "@0", .ok ("; ModuleID = 'm'\nsource_filename = \"m\"\n" ++
        "\ndeclare void @0()\n" ++ "\ndeclare void @0()\n")) := by
    decide +kernel
  obtain ⟨context, found, parts⟩ := Option.map_eq_some_iff.mp seen
  obtain ⟨first, second, firstSymbol, secondSymbol, text⟩ := by
    simpa only [Prod.mk.injEq] using parts
  exact ⟨context, found, first, second, firstSymbol.trans secondSymbol.symm, text⟩

/-- The symbol of the second function stands in more lines than one, since the first function
shadows it. -/
theorem shadowedRun_told :
    ∃ context, (afterAll Engine.reference (start .standard .start) shadowedRun).store.context?
        ⟨0, 0⟩ = some context ∧
      SymbolsTold context ∧ context.Shadows 0 1 ∧
      context.headSymbols.count (context.symbol 1) ≠ 1 := by
  have seen : ((afterAll Engine.reference (start .standard .start) shadowedRun).store.context?
      ⟨0, 0⟩).map (fun context => (context.functionName? 0, context.functionName? 1)) =
      some (some "", some "0") := by
    decide +kernel
  obtain ⟨context, found, names⟩ := Option.map_eq_some_iff.mp seen
  obtain ⟨anonymous, named⟩ := Prod.mk.inj names
  have told := symbols_told ⟨.standard, shadowedRun, rfl⟩ found
  have shadows : context.Shadows 0 1 := ⟨anonymous, named⟩
  refine ⟨context, found, told, shadows, fun single => ?_⟩
  exact ((told.line 1 shadows.live.2).mp single 0).2 shadows

end TypedIR.Workspace

/-! ## Locals -/

namespace TypedIR.Workspace

variable {σ : Type}

/-- The parameter has no name, a label and a result want the same one, and the other label wants
that which the parameter gets. -/
def crowdedRun : List (Engine ReferenceState × Task) :=
  let context : ContextId := ⟨0, 0⟩
  let commands : List Command :=
    [.createContext "crowded",
      .edit (.integerType context 32),
      .edit (.signatureType ⟨context, 0⟩ [⟨context, 0⟩] false),
      .edit (.declare context "f" ⟨context, 1⟩),
      .edit (.appendBlock ⟨context, 0⟩ "entry"),
      .edit (.appendBlock ⟨context, 0⟩ "0"),
      .edit (.binary ⟨context, 0⟩ .add ⟨context, 1⟩ ⟨context, 1⟩ "entry"),
      .edit (.branch ⟨context, 0⟩ ⟨context, 1⟩),
      .edit (.ret ⟨context, 1⟩ (some ⟨context, 2⟩))]
  commands.map fun command => (.reference, .request (.command command))

/-- At all times the locals of a live function have names of their own, each as it wants if no
earlier one has that name. Whoever asks, if the reference engine accepts a definition, its text
consists of pieces in which each local is introduced once and each use of one bears its name. -/
theorem local_names_unambiguous (settings : Settings) (native : σ)
    (run : List (Engine σ × Task)) {function : FunctionId} {context : Context}
    {entry : FunctionEntry}
    (found : ((start settings native).pursue run).1.store.context? function.context = some context)
    (live : context.function? function.index = some entry) :
    ∃ names, context.localNames entry = .ok names ∧ context.NamesLocals entry names ∧
      ∀ judge : ReferenceState, entry.isDefinition = true →
        (Action.verify Engine.reference function
          ⟨((start settings native).pursue run).1.store, judge⟩).result = .ok .valid →
        ∃ pieces, context.PrintsLocals entry names pieces ∧
          (Query.functionText function).answer ((start settings native).pursue run).1.store =
            .ok (.text (Piece.render names pieces)) := by
  obtain ⟨sameId, coherent, canonical, formed⟩ :=
    (constantsFormed_pursue settings native run).contexts function.context context found
  obtain ⟨member, _⟩ := Context.mem_of_function? live
  obtain ⟨names, done, named⟩ := coherent.namesLocals member
  refine ⟨names, done, named, fun judge defined verified => ?_⟩
  have verdict := (@Action.verify_live ⟨_, judge⟩ _ _ _ found sameId coherent.owned live).1
  have valid := Context.verdict_eq_valid.mp (Except.ok.inj (verdict.symm.trans verified))
  have wellFormed := (Context.findings_clean_iff coherent.owned member).mp valid
  obtain ⟨pieces, prints⟩ :=
    wellFormed.tied.printsLocals canonical coherent formed member defined done named
  refine ⟨pieces, prints, ?_⟩
  refine bind_eq_ok.mpr ⟨context, Store.resolve_eq_ok.mpr found, bind_eq_ok.mpr ⟨entry, ?_,
    bind_eq_ok.mpr ⟨_, prints.text, rfl⟩⟩⟩
  exact Context.resolveFunction_eq_ok.mpr ⟨sameId.symm, live⟩

theorem crowdedRun_unambiguous :
    ∃ context entry names pieces,
      ((start .standard .start).pursue crowdedRun).1.store.context? ⟨0, 0⟩ = some context ∧
      context.function? 0 = some entry ∧ context.NamesLocals entry names ∧
      names.map (·.2) = ["0", "entry", "entry1", "01"] ∧
      context.PrintsLocals entry names pieces ∧
      Piece.render names pieces = "define i32 @f(i32 %0) \x7b\nentry:\n" ++
        "  %entry1 = add i32 %0, %0\n  br label %01\n\n01:\n  ret i32 %entry1\n\x7d\n" := by
  have seen : (((start .standard .start).pursue crowdedRun).1.store.context? ⟨0, 0⟩).bind
      (fun context => (context.function? 0).map fun entry =>
        (entry.isDefinition, context.localNames entry, context.functionText entry)) =
      some (true, .ok [(.value 1, "0"), (.block 0, "entry"), (.value 2, "entry1"),
        (.block 1, "01")], .ok ("define i32 @f(i32 %0) \x7b\nentry:\n" ++
          "  %entry1 = add i32 %0, %0\n  br label %01\n\n01:\n  ret i32 %entry1\n\x7d\n")) := by
    decide +kernel
  have verified : (Action.verify Engine.reference ⟨⟨0, 0⟩, 0⟩
      ⟨((start .standard .start).pursue crowdedRun).1.store, .start⟩).result = .ok .valid := by
    decide +kernel
  obtain ⟨context, found, rest⟩ := Option.bind_eq_some_iff.mp seen
  obtain ⟨entry, live, parts⟩ := Option.map_eq_some_iff.mp rest
  obtain ⟨defined, known, text⟩ : _ ∧ _ ∧ _ := by simpa only [Prod.mk.injEq] using parts
  obtain ⟨names, done, named, printed⟩ :=
    @local_names_unambiguous _ .standard ReferenceState.start crowdedRun ⟨⟨0, 0⟩, 0⟩ _ _ found live
  obtain ⟨pieces, prints, _⟩ := printed .start defined verified
  obtain rfl := Except.ok.inj (known.symm.trans done)
  exact ⟨context, entry, _, pieces, found, live, named, rfl, prints,
    Except.ok.inj (prints.text.symm.trans text)⟩

end TypedIR.Workspace
