import TypedIR.Proofs.Check.Local
import TypedIR.Proofs.Ownership.Constants
import TypedIR.Proofs.Print.Locals
import TypedIR.Proofs.Print.Pieces
import TypedIR.Proofs.Print.Symbols
import TypedIR.Proofs.Types.Operands

/-!
Contract: what the text of a function mentions besides words.

Owns:
- the definitions and uses of locals that belong in the text of a function, in order;
- that a function whose references are in order is printed with these and nothing else, so with
  nothing that stands for something released or foreign;
- that each of its locals is introduced once and each use is one of a local with a name.

Operands are sized, so an instruction that is used has a name.
-/

namespace TypedIR.Context

variable {settings : Settings} {context : Context} {entry : FunctionEntry} {names : LocalNames}
  {value operand : ValueRef} {type : TypeRef} {kind : ValueKind} {block : BlockRef}
  {code : Instruction} {pieces : List Piece}

/-! ### What is to be mentioned -/

/-- The value is a parameter or an instruction. -/
def isLocal (context : Context) (value : ValueRef) : Bool :=
  (context.value? value).any fun entry => !entry.kind.isConstant

def operandMentions (context : Context) (operand : ValueRef) : List Piece :=
  if context.isLocal operand then [.use (.value operand)] else []

/-- Operands that are parameters or instructions, then the targets. -/
def codeMentions (context : Context) (code : Instruction) : List Piece :=
  code.operands.flatMap context.operandMentions ++
    code.successors.map fun target => .use (.block target)

def instructionMentions (context : Context) (value : ValueRef) : List Piece :=
  (context.instructionLocals value).map .definition ++
    (context.instruction? value).elim [] context.codeMentions

def blockMentions (context : Context) (block : BlockRef) : List Piece :=
  .definition (.block block) :: (context.listed block).flatMap context.instructionMentions

/-- The parameters, then block by block the label and the instructions in order. -/
def functionMentions (context : Context) (entry : FunctionEntry) : List Piece :=
  (entry.parameters.map fun parameter => .definition (.value parameter)) ++
    entry.blocks.flatMap context.blockMentions

theorem isLocal_eq (held : context.Holds value type kind) :
    context.isLocal value = !kind.isConstant := by
  obtain ⟨name, found⟩ := held
  rw [isLocal, found, Option.any_some]

section Printing

variable (coherent : context.Coherent) (member : entry ∈ context.functions)
  (named : context.NamesLocals entry names)

include coherent member named

/-- A constant has no name among the locals. -/
theorem unnamed_of_constant (held : context.Holds value type kind)
    (constant : kind.isConstant = true) : names.name? (.value value) = none := by
  refine Option.not_isSome_iff_eq_none.mp fun isNamed => ?_
  rcases value_mem_locals.mp (named.isSome_name?.mp isNamed) with among | ⟨block, _, among, _⟩
  · obtain ⟨_, _, parameter⟩ := coherent.owned.functions.holds_parameter member among
    rw [(held.unique parameter).2] at constant
    cases constant
  · obtain ⟨_, _, instruction⟩ := coherent.owned.mem_listed.mp among
    rw [(held.unique instruction).2] at constant
    cases constant

omit named in
/-- What an instruction of the function uses is of a sized type. -/
theorem StandsIn.operands_sized (stands : context.StandsIn block value code)
    (canonical : context.Canonical settings) (listed : block ∈ entry.blocks) :
    ∀ operand ∈ code.operands, ∀ held, context.value? operand = some held →
      SizedBy context.shape? held.type := by
  obtain ⟨home, found, among, isCode⟩ := stands
  obtain ⟨type, other, held⟩ :=
    ((coherent.owned.instructions.lists block home found).2 value).mp among
  have same := instruction?_eq_some.mpr ⟨type, block, held⟩
  obtain rfl := Option.some.inj (same.symm.trans isCode)
  have parent := ((coherent.owned.blocks.lists entry member).2 block).mp listed
  exact (coherent.wellTyped.typedLive coherent.owned canonical held parent).operands

/-- What a function may use is a local with a name or a constant. -/
theorem Usable.named_or_constant (usable : context.Usable entry operand)
    (sized : ∀ held, context.value? operand = some held → SizedBy context.shape? held.type) :
    ∃ type kind, context.Holds operand type kind ∧
      (kind.isConstant = false ∧ (names.name? (.value operand)).isSome ∨
        kind.isConstant = true ∧ names.name? (.value operand) = none) := by
  obtain ⟨type, kind, held, constant | ⟨position, rfl⟩ | ⟨block, listed, code, rfl⟩⟩ := usable
  · exact ⟨type, kind, held,
      .inr ⟨constant, unnamed_of_constant coherent member named held constant⟩⟩
  · obtain ⟨owner, ownerMember, same, place⟩ :=
      coherent.owned.functions.parameterOwners _ _ _ _ held
    obtain rfl := coherent.owned.functions.entry_unique ownerMember member same
    refine ⟨type, _, held, .inl ⟨rfl, named.isSome_name?.mpr (value_mem_locals.mpr (.inl ?_))⟩⟩
    exact List.mem_of_getElem? place
  · obtain ⟨name, found⟩ := held
    obtain ⟨shape, known, isSized⟩ := sized _ found
    have result : context.hasResult operand = true := by
      rw [hasResult_eq found known]
      cases shape with
      | void => cases isSized
      | _ => rfl
    have among : operand ∈ context.listed block :=
      coherent.owned.mem_listed.mpr ⟨type, code, name, found⟩
    refine ⟨type, _, ⟨name, found⟩, .inl ⟨rfl, named.isSome_name?.mpr ?_⟩⟩
    exact value_mem_locals.mpr (.inr ⟨block, listed, among, result⟩)

end Printing

/-! ### What is mentioned -/

/-- The parts of a text mention what their items do. -/
theorem mentions_of_mapM {α : Type} {action : α → Except Fault (List Piece)}
    {image : α → List Piece} {items : List α} {parts : List (List Piece)}
    (done : items.mapM action = .ok parts)
    (each : ∀ item ∈ items, ∀ pieces, action item = .ok pieces →
      Piece.mentions pieces = image item) :
    parts.flatMap Piece.mentions = items.flatMap image := by
  have results := mapM_eq_ok.mp done
  induction results with
  | nil => rfl
  | @cons item part _ _ first rest inductionHypothesis =>
      rw [List.flatMap_cons, List.flatMap_cons, each item List.mem_cons_self part first,
        inductionHypothesis (mapM_eq_ok.mpr rest) fun other listed =>
          each other (List.mem_cons_of_mem _ listed)]

theorem mentions_symbolPieces (owned : context.FunctionsOwned) (live : context.IsFunction value) :
    Piece.mentions (context.symbolPieces value) = [] := by
  obtain ⟨name, known⟩ := exists_functionName owned live
  rw [symbolPieces, known]
  rfl

/-- The type before a live value mentions nothing. -/
theorem mentions_typedFrom {action : ValueRef → Except Fault (List Piece)} {mentioned : List Piece}
    (held : context.Holds value type kind)
    (each : ∀ pieces, action value = .ok pieces → Piece.mentions pieces = mentioned)
    (done : context.typedFrom action value = .ok pieces) : Piece.mentions pieces = mentioned := by
  obtain ⟨name, found⟩ := held
  rw [typedFrom, found] at done
  obtain ⟨text, _, done⟩ := bind_eq_ok.mp done
  obtain ⟨own, made, done⟩ := bind_eq_ok.mp done
  obtain rfl := pure_eq_ok.mp done
  exact each own made

theorem mentions_structPieces (packed : Bool) (parts : List (List Piece)) :
    Piece.mentions (structPieces packed parts) = parts.flatMap Piece.mentions := by
  unfold structPieces
  cases parts with
  | nil => cases packed <;> rfl
  | cons first rest =>
      cases packed <;> simp [Piece.mentions_joined]

section Printing

variable (canonical : context.Canonical settings) (coherent : context.Coherent)
  (formed : context.ConstantsFormed) (member : entry ∈ context.functions)
  (named : context.NamesLocals entry names)

include canonical coherent formed member named

/-- Neither a constant nor what it is made of mentions anything. -/
theorem mentions_constant {budget : Nat} (data : context.HoldsData value type)
    (done : context.piecesWithin names budget value = .ok pieces) : Piece.mentions pieces = [] := by
  induction budget generalizing value type pieces with
  | zero => cases done
  | succ budget inductionHypothesis =>
      obtain ⟨kind, held, isData⟩ := data
      have parts : ∀ part ∈ kind.parts, ∃ type, context.HoldsData part type := fun _ listed =>
        ((formed value type kind held isData).types canonical coherent.owned).parts listed
      have constant : kind.isConstant = true := by
        cases kind with
        | function => cases isData
        | _ => exact isData
      have plain : ∀ items : List ValueRef, (∀ item ∈ items, item ∈ kind.parts) →
          ∀ texts, items.mapM (context.typedFrom (context.piecesWithin names budget)) = .ok texts →
            texts.flatMap Piece.mentions = [] := by
        intro items inside texts made
        have each : texts.flatMap Piece.mentions = items.flatMap fun _ => [] := by
          refine mentions_of_mapM made fun item listed pieces done => ?_
          obtain ⟨partType, partKind, partHeld, partData⟩ := parts item (inside item listed)
          exact mentions_typedFrom partHeld
            (fun _ => inductionHypothesis ⟨partKind, partHeld, partData⟩) done
        exact each.trans (List.flatMap_eq_nil_iff.mpr fun _ _ => rfl)
      have unnamed := unnamed_of_constant coherent member named held constant
      obtain ⟨name, found⟩ := held
      rw [piecesWithin, piecesFrom, unnamed, found] at done
      cases kind with
      | integer number =>
          obtain ⟨text, _, done⟩ := bind_eq_ok.mp done
          obtain rfl := pure_eq_ok.mp done
          rfl
      | array elements =>
          obtain ⟨texts, made, done⟩ := bind_eq_ok.mp done
          obtain rfl := pure_eq_ok.mp done
          have none := plain elements (fun _ listed => listed) texts made
          simp [Piece.mentions_joined, none]
      | struct fields =>
          obtain ⟨texts, made, done⟩ := bind_eq_ok.mp done
          obtain ⟨packed, _, done⟩ := bind_eq_ok.mp done
          obtain rfl := pure_eq_ok.mp done
          rw [mentions_structPieces]
          exact plain fields (fun _ listed => listed) texts made
      | bytes content =>
          obtain rfl := pure_eq_ok.mp done
          rfl
      | undefined =>
          obtain rfl := pure_eq_ok.mp done
          rfl
      | _ => cases isData

/-- An operand is mentioned if it is a parameter or an instruction. -/
theorem mentions_operandPieces (usable : context.Usable entry operand)
    (sized : ∀ held, context.value? operand = some held → SizedBy context.shape? held.type)
    (done : context.operandPieces names operand = .ok pieces) :
    Piece.mentions pieces = context.operandMentions operand := by
  obtain ⟨type, kind, held, ⟨isLocal, isNamed⟩ | ⟨constant, unnamed⟩⟩ :=
    usable.named_or_constant coherent member named sized
  · obtain ⟨name, known⟩ := Option.isSome_iff_exists.mp isNamed
    rw [operandPieces, piecesWithin, piecesFrom, known] at done
    obtain rfl := pure_eq_ok.mp done
    rw [operandMentions, isLocal_eq held, isLocal]
    rfl
  · rw [operandMentions, isLocal_eq held, constant, Bool.not_true, if_neg Bool.false_ne_true]
    by_cases isData : kind.isData = true
    · exact mentions_constant canonical coherent formed member named ⟨kind, held, isData⟩ done
    · obtain rfl : kind = .function := by
        cases kind with
        | function => rfl
        | _ => exact absurd constant isData
      have live := (coherent.owned.functions.values operand).mpr ⟨type, held⟩
      obtain ⟨name, found⟩ := held
      rw [operandPieces, piecesWithin, piecesFrom, unnamed, found] at done
      obtain rfl := pure_eq_ok.mp done
      exact mentions_symbolPieces coherent.owned.functions live

omit canonical coherent formed member in
theorem mentions_targetPieces (listed : block ∈ entry.blocks) :
    Piece.mentions (context.targetPieces names block) = [.use (.block block)] := by
  obtain ⟨name, known⟩ := Option.isSome_iff_exists.mp
    (named.isSome_name?.mpr (block_mem_locals.mpr listed))
  rw [targetPieces, known]
  rfl

theorem mentions_codePieces (tied : context.CodeTied entry code)
    (sized : ∀ operand ∈ code.operands, ∀ held, context.value? operand = some held →
      SizedBy context.shape? held.type)
    (done : context.codePieces names type code = .ok pieces) :
    Piece.mentions pieces = context.codeMentions code := by
  have plain : ∀ operand ∈ code.operands, ∀ pieces,
      context.operandPieces names operand = .ok pieces →
        Piece.mentions pieces = context.operandMentions operand := fun operand used pieces =>
    mentions_operandPieces canonical coherent formed member named (tied.operands operand used)
      (sized operand used)
  have typed : ∀ operand ∈ code.operands, ∀ pieces,
      context.typedPieces names operand = .ok pieces →
        Piece.mentions pieces = context.operandMentions operand := by
    intro operand used pieces
    obtain ⟨_, _, held, _⟩ := tied.operands operand used
    exact mentions_typedFrom held (plain operand used)
  have targets : ∀ target ∈ code.successors,
      Piece.mentions (context.targetPieces names target) = [.use (.block target)] :=
    fun target successor => mentions_targetPieces named (tied.targets target successor)
  cases code with
  | binary operator left right =>
      obtain ⟨first, firstMade, done⟩ := bind_eq_ok.mp done
      obtain ⟨second, secondMade, done⟩ := bind_eq_ok.mp done
      obtain rfl := pure_eq_ok.mp done
      have firstMentions := typed left List.mem_cons_self first firstMade
      have secondMentions := plain right (.tail _ (.head _)) second secondMade
      simp [codeMentions, Instruction.operands, Instruction.successors, firstMentions,
        secondMentions]
  | compare predicate left right =>
      obtain ⟨first, firstMade, done⟩ := bind_eq_ok.mp done
      obtain ⟨second, secondMade, done⟩ := bind_eq_ok.mp done
      obtain rfl := pure_eq_ok.mp done
      have firstMentions := typed left List.mem_cons_self first firstMade
      have secondMentions := plain right (.tail _ (.head _)) second secondMade
      simp [codeMentions, Instruction.operands, Instruction.successors, firstMentions,
        secondMentions]
  | select condition thenValue elseValue =>
      obtain ⟨first, firstMade, done⟩ := bind_eq_ok.mp done
      obtain ⟨second, secondMade, done⟩ := bind_eq_ok.mp done
      obtain ⟨third, thirdMade, done⟩ := bind_eq_ok.mp done
      obtain rfl := pure_eq_ok.mp done
      have firstMentions := typed condition List.mem_cons_self first firstMade
      have secondMentions := typed thenValue (.tail _ (.head _)) second secondMade
      have thirdMentions := typed elseValue (.tail _ (.tail _ (.head _))) third thirdMade
      simp [codeMentions, Instruction.operands, Instruction.successors, firstMentions,
        secondMentions, thirdMentions]
  | call callee arguments =>
      obtain ⟨parts, partsMade, done⟩ := bind_eq_ok.mp done
      obtain ⟨result, _, done⟩ := bind_eq_ok.mp done
      obtain rfl := pure_eq_ok.mp done
      have partsMention := mentions_of_mapM partsMade typed
      have symbolMentions := mentions_symbolPieces coherent.owned.functions (tied.callee callee rfl)
      simp [codeMentions, Instruction.operands, Instruction.successors, symbolMentions,
        Piece.mentions_joined, partsMention]
  | ret value =>
      cases value with
      | none =>
          obtain rfl := pure_eq_ok.mp done
          rfl
      | some value =>
          obtain ⟨part, made, done⟩ := bind_eq_ok.mp done
          obtain rfl := pure_eq_ok.mp done
          have partMentions := typed value List.mem_cons_self part made
          simp [codeMentions, Instruction.operands, Instruction.successors, partMentions]
  | branch target =>
      obtain rfl := pure_eq_ok.mp done
      have targetMentions := targets target List.mem_cons_self
      simp [codeMentions, Instruction.operands, Instruction.successors, targetMentions]
  | condBranch condition thenBlock elseBlock =>
      obtain ⟨part, made, done⟩ := bind_eq_ok.mp done
      obtain rfl := pure_eq_ok.mp done
      have partMentions := typed condition List.mem_cons_self part made
      have thenMentions := targets thenBlock List.mem_cons_self
      have elseMentions := targets elseBlock (.tail _ (.head _))
      simp [codeMentions, Instruction.operands, Instruction.successors, partMentions,
        thenMentions, elseMentions]
  | unreachable =>
      obtain rfl := pure_eq_ok.mp done
      rfl

/-- An instruction of the function mentions itself, if it has a result, and what it uses. -/
theorem mentions_instructionPieces (tied : context.Tied entry) (listed : block ∈ entry.blocks)
    (among : value ∈ context.listed block)
    (done : context.instructionPieces names value = .ok pieces) :
    Piece.mentions pieces = context.instructionMentions value := by
  obtain ⟨type, code, held⟩ := coherent.owned.mem_listed.mp among
  have isCode := instruction?_eq_some.mpr ⟨type, block, held⟩
  have stands : context.StandsIn block value code := by
    obtain ⟨home, found⟩ := coherent.owned.blocks.exists_block member listed
    exact ⟨home, found, listed_eq found ▸ among, isCode⟩
  have sized := stands.operands_sized coherent member canonical listed
  obtain ⟨name, live⟩ := held
  obtain ⟨other, resolved, done⟩ := bind_eq_ok.mp done
  obtain rfl := Option.some.inj (live.symm.trans (resolveValue_eq_ok.mp resolved).2)
  obtain ⟨own, made, done⟩ := bind_eq_ok.mp done
  have ownMentions := mentions_codePieces canonical coherent formed member named
    (tied block listed value code stands) sized made
  rw [instructionMentions, instructionLocals, isCode, Option.elim_some, ← ownMentions]
  have named_iff := named.isSome_name?.trans
    (coherent.owned.instruction_mem_locals member listed among)
  cases known : names.name? (.value value) with
  | some given =>
      rw [known] at done named_iff
      obtain rfl := pure_eq_ok.mp done
      rw [if_pos (named_iff.mp rfl)]
      rfl
  | none =>
      rw [known] at done named_iff
      obtain rfl := pure_eq_ok.mp done
      rw [if_neg fun result => Bool.false_ne_true (named_iff.mpr result)]
      rfl

theorem mentions_blockPieces (tied : context.Tied entry) (listed : block ∈ entry.blocks)
    (done : context.blockPieces names block = .ok pieces) :
    Piece.mentions pieces = context.blockMentions block := by
  obtain ⟨home, resolved, done⟩ := bind_eq_ok.mp done
  obtain ⟨name, known⟩ := Option.isSome_iff_exists.mp
    (named.isSome_name?.mpr (block_mem_locals.mpr listed))
  rw [known] at done
  obtain ⟨lines, made, done⟩ := bind_eq_ok.mp done
  obtain rfl := pure_eq_ok.mp done
  have same : context.listed block = home.instructions :=
    listed_eq (resolveBlock_eq_ok.mp resolved).2
  have linesMention := mentions_of_mapM made fun value among pieces =>
    mentions_instructionPieces canonical coherent formed member named tied listed (same ▸ among)
  rw [blockMentions, same, ← linesMention]
  simp [Piece.mentions_flatMap]

omit canonical coherent formed member named in
/-- The parameters of a definition are introduced one after the other. -/
theorem mentions_parametersPieces (defined : entry.isDefinition = true) {position : Nat}
    {parameters : List ValueRef} {parts : List (List Piece)}
    (done : context.parametersPieces entry names position parameters = .ok parts) :
    parts.flatMap Piece.mentions =
      parameters.map fun parameter => .definition (.value parameter) := by
  induction parameters generalizing position parts with
  | nil =>
      obtain rfl := pure_eq_ok.mp done
      rfl
  | cons parameter parameters inductionHypothesis =>
      obtain ⟨first, firstMade, done⟩ := bind_eq_ok.mp done
      obtain ⟨rest, restMade, done⟩ := bind_eq_ok.mp done
      obtain rfl := pure_eq_ok.mp done
      obtain ⟨held, _, firstMade⟩ := bind_eq_ok.mp firstMade
      obtain ⟨type, _, firstMade⟩ := bind_eq_ok.mp firstMade
      rw [if_pos defined] at firstMade
      rw [List.flatMap_cons, inductionHypothesis restMade, List.map_cons]
      cases known : names.name? (.value parameter) with
      | none =>
          rw [known] at firstMade
          cases firstMade
      | some name =>
          rw [known] at firstMade
          obtain rfl := pure_eq_ok.mp firstMade
          rfl

omit canonical formed named in
/-- The head of a definition mentions its parameters only. -/
theorem mentions_headPieces (defined : entry.isDefinition = true)
    (done : context.headPieces entry names = .ok pieces) :
    Piece.mentions pieces =
      entry.parameters.map fun parameter => .definition (.value parameter) := by
  obtain ⟨⟨result, variadic⟩, _, done⟩ := bind_eq_ok.mp done
  obtain ⟨parts, made, done⟩ := bind_eq_ok.mp done
  obtain ⟨type, _, done⟩ := bind_eq_ok.mp done
  obtain rfl := pure_eq_ok.mp done
  have parameters := mentions_parametersPieces defined made
  have itself : Piece.mentions (context.symbolPieces entry.self) = [] :=
    mentions_symbolPieces coherent.owned.functions ⟨entry, member, rfl⟩
  have personality : Piece.mentions (context.personalityPieces entry) = [] := by
    unfold personalityPieces
    cases known : entry.personality with
    | none => rfl
    | some personality =>
        exact mentions_symbolPieces coherent.owned.functions
          (coherent.owned.functions.personalities entry member personality known)
  cases variadic <;> simp [Piece.mentions_joined, itself, personality, parameters]

/-- A definition whose references are in order is printed with what belongs in its text. -/
theorem mentions_functionPieces (tied : context.Tied entry) (defined : entry.isDefinition = true)
    (done : context.functionPieces entry names = .ok pieces) :
    Piece.mentions pieces = context.functionMentions entry := by
  obtain ⟨head, headMade, done⟩ := bind_eq_ok.mp done
  rw [if_pos defined] at done
  obtain ⟨parts, made, done⟩ := bind_eq_ok.mp done
  obtain rfl := pure_eq_ok.mp done
  have headMentions := mentions_headPieces coherent member defined headMade
  have blocksMention := mentions_of_mapM made fun block listed pieces =>
    mentions_blockPieces canonical coherent formed member named tied listed
  simp [functionMentions, Piece.mentions_joined, headMentions, blocksMention]

end Printing

/-! ### What the mentions come to -/

theorem mem_codeMentions {piece : Piece} :
    piece ∈ context.codeMentions code ↔
      (∃ operand ∈ code.operands, context.isLocal operand = true ∧
        piece = .use (.value operand)) ∨
      ∃ target ∈ code.successors, piece = .use (.block target) := by
  have operand : ∀ operand, piece ∈ context.operandMentions operand ↔
      context.isLocal operand = true ∧ piece = .use (.value operand) := by
    intro operand
    unfold operandMentions
    by_cases isLocal : context.isLocal operand = true
    · rw [if_pos isLocal, List.mem_singleton, and_iff_right isLocal]
    · rw [if_neg isLocal]
      exact iff_of_false List.not_mem_nil fun both => isLocal both.1
  rw [codeMentions, List.mem_append, List.mem_flatMap, List.mem_map]
  simp only [operand, eq_comm]

theorem definition?_codeMentions (code : Instruction) :
    (context.codeMentions code).filterMap Piece.definition? = [] := by
  refine List.filterMap_eq_nil_iff.mpr fun piece listed => ?_
  rcases mem_codeMentions.mp listed with ⟨_, _, _, rfl⟩ | ⟨_, _, rfl⟩
  · rfl
  · rfl

theorem definition?_instructionMentions (value : ValueRef) :
    (context.instructionMentions value).filterMap Piece.definition? =
      context.instructionLocals value := by
  have code : ((context.instruction? value).elim [] context.codeMentions).filterMap
      Piece.definition? = [] := by
    cases context.instruction? value with
    | none => rfl
    | some code => exact definition?_codeMentions code
  have own : ((context.instructionLocals value).map .definition).filterMap Piece.definition? =
      context.instructionLocals value := by
    rw [List.filterMap_map]
    exact List.filterMap_some
  rw [instructionMentions, List.filterMap_append, code, own, List.append_nil]

/-- What belongs in the text of a function introduces its locals in order. -/
theorem definition?_functionMentions (entry : FunctionEntry) :
    (context.functionMentions entry).filterMap Piece.definition? = context.locals entry := by
  have blocks : entry.blocks.flatMap (fun block =>
      (context.blockMentions block).filterMap Piece.definition?) =
      entry.blocks.flatMap context.blockLocals := by
    refine congrArg entry.blocks.flatMap (funext fun block => ?_)
    rw [blockMentions, blockLocals]
    refine congrArg (Local.block block :: ·) ?_
    rw [List.filterMap_flatMap]
    simp only [definition?_instructionMentions]
  have parameters : (entry.parameters.map fun parameter =>
      Piece.definition (.value parameter)).filterMap Piece.definition? =
      entry.parameters.map Local.value := by
    rw [List.filterMap_map]
    exact congrFun List.filterMap_eq_map' _
  rw [functionMentions, locals, List.filterMap_append, List.filterMap_flatMap, blocks, parameters]

/-- A piece that belongs in the text of a function introduces a local, or an instruction of the
function uses what it names. -/
theorem functionMentions_cases (owned : context.Owned) (member : entry ∈ context.functions)
    {piece : Piece} (listed : piece ∈ context.functionMentions entry) :
    (∃ item, piece = .definition item) ∨
      ∃ block ∈ entry.blocks, ∃ value code, context.StandsIn block value code ∧
        piece ∈ context.codeMentions code := by
  rcases List.mem_append.mp listed with parameter | inBlock
  · obtain ⟨value, _, rfl⟩ := List.mem_map.mp parameter
    exact .inl ⟨_, rfl⟩
  · obtain ⟨block, blockListed, inside⟩ := List.mem_flatMap.mp inBlock
    rcases List.mem_cons.mp inside with rfl | inCode
    · exact .inl ⟨_, rfl⟩
    · obtain ⟨value, among, inside⟩ := List.mem_flatMap.mp inCode
      rcases List.mem_append.mp inside with own | used
      · obtain ⟨item, _, rfl⟩ := List.mem_map.mp own
        exact .inl ⟨_, rfl⟩
      · obtain ⟨home, found⟩ := owned.blocks.exists_block member blockListed
        rw [listed_eq found] at among
        obtain ⟨code, stands⟩ := standsIn_of_listed owned found among
        rw [stands.isCode] at used
        exact .inr ⟨block, blockListed, value, code, stands, used⟩

/-- What a function uses is a local of it with a name. -/
theorem name?_of_use (canonical : context.Canonical settings) (coherent : context.Coherent)
    (member : entry ∈ context.functions) (named : context.NamesLocals entry names)
    (tied : context.Tied entry) {item : Local}
    (mentioned : .use item ∈ context.functionMentions entry) :
    ∃ name, names.name? item = some name := by
  refine Option.isSome_iff_exists.mp ?_
  rcases functionMentions_cases coherent.owned member mentioned with
    ⟨_, same⟩ | ⟨block, listed, value, code, stands, used⟩
  · cases same
  · have own := tied block listed value code stands
    rcases mem_codeMentions.mp used with ⟨operand, among, isLocal, same⟩ | ⟨target, among, same⟩
    · obtain rfl := Piece.use.inj same
      have sized := stands.operands_sized coherent member canonical listed operand among
      obtain ⟨_, _, held, ⟨_, isNamed⟩ | ⟨constant, _⟩⟩ :=
        (own.operands operand among).named_or_constant coherent member named sized
      · exact isNamed
      · rw [isLocal_eq held, constant] at isLocal
        cases isLocal
    · obtain rfl := Piece.use.inj same
      exact named.isSome_name?.mpr (block_mem_locals.mpr (own.targets target among))

/-- The pieces of a function with the names of its locals: each local is introduced once, what is
used is a local with a name, and nothing stands for anything else. -/
structure PrintsLocals (context : Context) (entry : FunctionEntry) (names : LocalNames)
    (pieces : List Piece) : Prop where
  made : context.functionPieces entry names = .ok pieces
  text : context.functionText entry = .ok (Piece.render names pieces)
  /-- In order, the parameters and labels, the results, the operands that are parameters or
  instructions and the targets. -/
  mentions : Piece.mentions pieces = context.functionMentions entry
  /-- Of the locals none is listed twice. -/
  definitions : pieces.filterMap Piece.definition? = context.locals entry
  uses : ∀ item, .use item ∈ pieces → ∃ name, names.name? item = some name
  told : ∀ one two name, names.name? one = some name → names.name? two = some name → one = two
  placeholders : ∀ text, .placeholder text ∉ pieces

theorem Tied.printsLocals (tied : context.Tied entry) (canonical : context.Canonical settings)
    (coherent : context.Coherent) (formed : context.ConstantsFormed)
    (member : entry ∈ context.functions) (defined : entry.isDefinition = true)
    (found : context.localNames entry = .ok names) (named : context.NamesLocals entry names) :
    ∃ pieces, context.PrintsLocals entry names pieces := by
  obtain ⟨text, printed⟩ := functionText_succeeds canonical coherent member
  obtain ⟨other, same, rest⟩ := bind_eq_ok.mp (functionText_render.symm.trans printed)
  obtain rfl := Except.ok.inj (found.symm.trans same)
  obtain ⟨pieces, made, rendered⟩ := bind_eq_ok.mp rest
  obtain rfl := pure_eq_ok.mp rendered
  have mentions :=
    mentions_functionPieces canonical coherent formed member named tied defined made
  have inText : ∀ piece ∈ pieces, piece.isMention = true →
      piece ∈ context.functionMentions entry := fun piece listed isMention =>
    mentions ▸ List.mem_filter.mpr ⟨listed, isMention⟩
  refine ⟨pieces, made, printed, mentions, ?_, fun item listed => ?_,
    fun one two name => named.told, fun text listed => ?_⟩
  · rw [← definition?_functionMentions, ← mentions, Piece.definition?_mentions]
  · exact name?_of_use canonical coherent member named tied (inText _ listed rfl)
  · rcases functionMentions_cases coherent.owned member (inText _ listed rfl) with
      ⟨_, same⟩ | ⟨_, _, _, _, _, used⟩
    · cases same
    · rcases mem_codeMentions.mp used with ⟨_, _, _, same⟩ | ⟨_, _, same⟩
      · cases same
      · cases same

end TypedIR.Context
