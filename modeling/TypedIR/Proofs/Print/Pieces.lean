import TypedIR.Proofs.Print.Total

/-!
Contract: printed functions as pieces, which keep apart what is a name and what is not.

Owns:
- pieces: words, the name of a local where it is introduced or referred to, and what stands for
  something released or for a local of another function;
- the text of pieces under given names;
- each step of the printer with pieces for text, and that the text of its pieces is what the
  printer makes, be it a text or a refusal.

Names of functions are words, since they do not depend on those of locals.
-/

namespace TypedIR

inductive Piece where
  | words (text : String)
  /-- The name of a local where the local is introduced. -/
  | definition (item : Local)
  /-- The name of a local where something refers to it. -/
  | use (item : Local)
  /-- What stands for something released, or for a local that has no name here. -/
  | placeholder (text : String)
deriving DecidableEq, Repr

namespace Piece

/-- A percent sign stands before every name but that of a label. -/
def text (names : LocalNames) : Piece → String
  | .words text | .placeholder text => text
  | .definition (.block block) => (names.name? (.block block)).getD ""
  | .definition (.value value) => "%" ++ (names.name? (.value value)).getD ""
  | .use item => "%" ++ (names.name? item).getD ""

def render (names : LocalNames) : List Piece → String
  | [] => ""
  | piece :: pieces => piece.text names ++ render names pieces

/-- Pieces with words between two of them. -/
def joined (separator : String) : List (List Piece) → List Piece
  | [] => []
  | first :: rest => first ++ rest.flatMap fun part => .words separator :: part

def isMention : Piece → Bool
  | .words _ => false
  | _ => true

/-- The local that a piece introduces. -/
def definition? : Piece → Option Local
  | .definition item => some item
  | _ => none

/-- The pieces other than words. -/
def mentions (pieces : List Piece) : List Piece := pieces.filter isMention

section Render

variable {names : LocalNames}

@[simp] theorem render_nil : render names [] = "" := rfl

@[simp] theorem render_cons (piece : Piece) (pieces : List Piece) :
    render names (piece :: pieces) = piece.text names ++ render names pieces := rfl

@[simp] theorem render_append (first second : List Piece) :
    render names (first ++ second) = render names first ++ render names second := by
  induction first with
  | nil => rw [List.nil_append, render_nil, String.empty_append]
  | cons piece pieces inductionHypothesis =>
      rw [List.cons_append, render_cons, inductionHypothesis, render_cons, String.append_assoc]

/-- The accumulator of a fold over texts is what the text begins with. -/
theorem render_foldl {parts : List (List Piece)} {extend : String → String → String}
    {spread : List Piece → List Piece}
    (each : ∀ text part, extend text (render names part) = text ++ render names (spread part))
    (front : List Piece) :
    (parts.map (render names)).foldl extend (render names front) =
      render names (front ++ parts.flatMap spread) := by
  induction parts generalizing front with
  | nil => rw [List.map_nil, List.foldl_nil, List.flatMap_nil, List.append_nil]
  | cons part parts inductionHypothesis =>
      rw [List.map_cons, List.foldl_cons, each, ← render_append, inductionHypothesis,
        List.flatMap_cons, List.append_assoc]

theorem render_joined (separator : String) (parts : List (List Piece)) :
    render names (joined separator parts) = Text.joined separator (parts.map (render names)) := by
  cases parts with
  | nil => rfl
  | cons first rest =>
      refine (render_foldl (fun text part => ?_) first).symm
      rw [render_cons, Piece.text, String.append_assoc]

end Render

section Mentions

@[simp] theorem mentions_nil : mentions [] = [] := rfl

@[simp] theorem mentions_words (text : String) (pieces : List Piece) :
    mentions (.words text :: pieces) = mentions pieces := rfl

@[simp] theorem mentions_definition (item : Local) (pieces : List Piece) :
    mentions (.definition item :: pieces) = .definition item :: mentions pieces := rfl

@[simp] theorem mentions_use (item : Local) (pieces : List Piece) :
    mentions (.use item :: pieces) = .use item :: mentions pieces := rfl

@[simp] theorem mentions_append (first second : List Piece) :
    mentions (first ++ second) = mentions first ++ mentions second := List.filter_append ..

theorem mentions_flatMap {α : Type} (items : List α) (image : α → List Piece) :
    mentions (items.flatMap image) = items.flatMap fun item => mentions (image item) :=
  List.filter_flatMap ..

/-- Words introduce nothing. -/
theorem definition?_mentions (pieces : List Piece) :
    (mentions pieces).filterMap definition? = pieces.filterMap definition? := by
  rw [mentions, List.filterMap_filter]
  refine congrArg (List.filterMap · pieces) (funext fun piece => ?_)
  cases piece <;> rfl

/-- What stands between the parts mentions nothing. -/
theorem mentions_joined (separator : String) (parts : List (List Piece)) :
    mentions (joined separator parts) = parts.flatMap mentions := by
  cases parts with
  | nil => rfl
  | cons first rest =>
      rw [joined, mentions_append, mentions_flatMap, List.flatMap_cons]
      rfl

end Mentions

end Piece

/-! ### The printer in pieces -/

namespace Context

def symbolPieces (context : Context) (function : ValueRef) : List Piece :=
  match context.functionName? function with
  | some _ => [.words (context.symbol function)]
  | none => [.placeholder (context.symbol function)]

/-- A value behind its type, given the pieces of the value. -/
def typedFrom (context : Context) (pieces : ValueRef → Except Fault (List Piece))
    (value : ValueRef) : Except Fault (List Piece) :=
  match context.value? value with
  | none => return [.placeholder releasedMark]
  | some entry => do
      let type ← context.requireTypeText entry.type
      let pieces ← pieces value
      return .words (type ++ " ") :: pieces

/-- A struct's parts between the brackets that tell whether it is packed. -/
def structPieces (packed : Bool) (parts : List (List Piece)) : List Piece :=
  let braced : List Piece :=
    if parts.isEmpty then [.words "\x7b\x7d"]
    else .words "\x7b " :: Piece.joined ", " parts ++ [.words " \x7d"]
  if packed then .words "<" :: braced ++ [.words ">"] else braced

/-- The pieces of an operand, given the pieces of the values that it is made of. -/
def piecesFrom (context : Context) (names : LocalNames)
    (pieces : ValueRef → Except Fault (List Piece)) (value : ValueRef) :
    Except Fault (List Piece) :=
  match names.name? (.value value) with
  | some _ => return [.use (.value value)]
  | none =>
  match context.value? value with
  | none => return [.placeholder releasedMark]
  | some ⟨type, kind, name⟩ =>
      match kind with
      | .integer number => do
          let text ← context.integerText type number
          return [.words text]
      | .array elements => do
          let parts ← elements.mapM (context.typedFrom pieces)
          return .words "[" :: Piece.joined ", " parts ++ [.words "]"]
      | .bytes content =>
          return [.words ("c\"" ++ String.ofList (Text.escapeBytes content) ++ "\"")]
      | .struct fields => do
          let parts ← fields.mapM (context.typedFrom pieces)
          let packed ← context.isPacked type
          return structPieces packed parts
      | .undefined => return [.words "undef"]
      | .function => return context.symbolPieces value
      | .parameter _ _ => return [.placeholder (context.foreignLocalText value name)]
      | .instruction _ _ => return [.placeholder (context.foreignLocalText value name)]

def piecesWithin (context : Context) (names : LocalNames) :
    Nat → ValueRef → Except Fault (List Piece)
  | 0, value => throw (.released (.value (context.valueId value)))
  | budget + 1, value => context.piecesFrom names (context.piecesWithin names budget) value

def operandPieces (context : Context) (names : LocalNames) (value : ValueRef) :
    Except Fault (List Piece) :=
  context.piecesWithin names (value + 1) value

def typedPieces (context : Context) (names : LocalNames) (value : ValueRef) :
    Except Fault (List Piece) :=
  context.typedFrom (context.operandPieces names) value

def targetPieces (context : Context) (names : LocalNames) (block : BlockRef) : List Piece :=
  match names.name? (.block block) with
  | some _ => [.use (.block block)]
  | none => [.placeholder ("%<" ++ (context.blockId block).text ++ ">")]

def callPieces (context : Context) (names : LocalNames) (type : TypeRef) (callee : ValueRef)
    (arguments : List ValueRef) : Except Fault (List Piece) := do
  let arguments ← arguments.mapM (context.typedPieces names)
  let convention := ((context.function? callee).map (·.convention)).getD 0
  let result ← context.requireTypeText type
  return .words ("call " ++ conventionPrefix convention ++ result ++ " ") ::
    context.symbolPieces callee ++ .words "(" :: Piece.joined ", " arguments ++ [.words ")"]

def codePieces (context : Context) (names : LocalNames) (type : TypeRef) :
    Instruction → Except Fault (List Piece)
  | .binary operator left right => do
      let left ← context.typedPieces names left
      let right ← context.operandPieces names right
      return .words (operator.word ++ " ") :: left ++ .words ", " :: right
  | .compare predicate left right => do
      let left ← context.typedPieces names left
      let right ← context.operandPieces names right
      return .words ("icmp " ++ predicate.word ++ " ") :: left ++ .words ", " :: right
  | .select condition thenValue elseValue => do
      let condition ← context.typedPieces names condition
      let thenValue ← context.typedPieces names thenValue
      let elseValue ← context.typedPieces names elseValue
      return .words "select " :: condition ++ .words ", " :: thenValue ++ .words ", " :: elseValue
  | .call callee arguments => context.callPieces names type callee arguments
  | .ret (some value) => do
      let value ← context.typedPieces names value
      return .words "ret " :: value
  | .ret none => return [.words "ret void"]
  | .branch target => return .words "br label " :: context.targetPieces names target
  | .condBranch condition thenBlock elseBlock => do
      let condition ← context.typedPieces names condition
      return .words "br " :: condition ++ .words ", label " ::
        context.targetPieces names thenBlock ++ .words ", label " ::
          context.targetPieces names elseBlock
  | .unreachable => return [.words "unreachable"]

def instructionPieces (context : Context) (names : LocalNames) (value : ValueRef) :
    Except Fault (List Piece) := do
  let entry ← context.resolveValue (context.valueId value)
  match entry.kind with
  | .instruction _ code =>
      let pieces ← context.codePieces names entry.type code
      match names.name? (.value value) with
      | some _ => return .definition (.value value) :: .words " = " :: pieces
      | none => return pieces
  | _ => context.operandPieces names value

def parameterPieces (context : Context) (entry : FunctionEntry) (names : LocalNames)
    (position : Nat) (parameter : ValueRef) : Except Fault (List Piece) := do
  let value ← context.resolveValue (context.valueId parameter)
  let type ← context.requireTypeText value.type
  let text := type ++ attributeSuffix entry (.parameter position)
  if entry.isDefinition then
    match names.name? (.value parameter) with
    | some _ => return [.words (text ++ " "), .definition (.value parameter)]
    | none => throw (.released (.value (context.valueId parameter)))
  else return [.words text]

def parametersPieces (context : Context) (entry : FunctionEntry) (names : LocalNames) :
    Nat → List ValueRef → Except Fault (List (List Piece))
  | _, [] => return []
  | position, parameter :: parameters => do
      let pieces ← context.parameterPieces entry names position parameter
      let rest ← context.parametersPieces entry names (position + 1) parameters
      return pieces :: rest

def personalityPieces (context : Context) (entry : FunctionEntry) : List Piece :=
  match entry.personality with
  | some personality => .words " personality " :: context.symbolPieces personality
  | none => []

def headPieces (context : Context) (entry : FunctionEntry) (names : LocalNames) :
    Except Fault (List Piece) := do
  let (result, variadic) ← context.resultOf entry
  let parameters ← context.parametersPieces entry names 0 entry.parameters
  let parameters := if variadic then parameters ++ [[.words "..."]] else parameters
  let result ← context.requireTypeText result
  let keyword := if entry.isDefinition then "define " else "declare "
  let collector := match entry.collector with
    | some strategy => " gc \"" ++ strategy ++ "\""
    | none => ""
  return .words (keyword ++ conventionPrefix entry.convention ++ attributePrefix entry .ret ++
      result ++ " ") :: context.symbolPieces entry.self ++ .words "(" ::
    Piece.joined ", " parameters ++ .words (")" ++ attributeSuffix entry .function ++ collector) ::
      context.personalityPieces entry

def blockPieces (context : Context) (names : LocalNames) (block : BlockRef) :
    Except Fault (List Piece) := do
  let entry ← context.resolveBlock (context.blockId block)
  match names.name? (.block block) with
  | none => throw (.released (.block (context.blockId block)))
  | some _ =>
      let lines ← entry.instructions.mapM (context.instructionPieces names)
      return .definition (.block block) :: .words ":\n" ::
        lines.flatMap fun line => .words "  " :: line ++ [.words "\n"]

def functionPieces (context : Context) (entry : FunctionEntry) (names : LocalNames) :
    Except Fault (List Piece) := do
  let head ← context.headPieces entry names
  if entry.isDefinition then
    let blocks ← entry.blocks.mapM (context.blockPieces names)
    return head ++ .words " \x7b\n" :: Piece.joined "\n" blocks ++ [.words "\x7d\n"]
  else return head ++ [.words "\n"]

/-! ### The text of the pieces -/

section Text

variable {context : Context} {names : LocalNames}

open Piece (render)

theorem render_symbolPieces (function : ValueRef) :
    render names (context.symbolPieces function) = context.symbol function := by
  unfold symbolPieces
  cases context.functionName? function <;> exact String.append_empty

theorem render_structPieces (packed : Bool) (parts : List (List Piece)) :
    render names (structPieces packed parts) =
      TypeTree.structText packed (parts.map (render names)) := by
  unfold structPieces TypeTree.structText TypeTree.braced
  cases parts with
  | nil => cases packed <;> rfl
  | cons first rest =>
      cases packed <;>
        simp [Piece.render_joined, Piece.text, String.append_assoc]

theorem mapM_render {α : Type} {one : α → Except Fault (List Piece)}
    {two : α → Except Fault String} {items : List α}
    (each : ∀ item, two item = render names <$> one item) :
    items.mapM two = List.map (render names) <$> items.mapM one := by
  induction items with
  | nil => rfl
  | cons first rest inductionHypothesis =>
      simp only [List.mapM_cons, each, inductionHypothesis, bind_map_left, map_bind, map_pure,
        List.map_cons]

/-- A value behind its type, if its text is that of its pieces. -/
theorem typedFrom_render {pieces : ValueRef → Except Fault (List Piece)} (value : ValueRef) :
    (match context.value? value with
      | none => pure releasedMark
      | some entry => do
          let type ← context.requireTypeText entry.type
          let text ← render names <$> pieces value
          return type ++ " " ++ text) = render names <$> context.typedFrom pieces value := by
  unfold typedFrom
  cases context.value? value with
  | none => exact congrArg Except.ok String.append_empty.symm
  | some entry =>
      simp only [bind_map_left, map_bind, map_pure, Piece.render_cons, Piece.text]

theorem operandFrom_render {pieces : ValueRef → Except Fault (List Piece)}
    {text : ValueRef → Except Fault String}
    (each : ∀ value, text value = render names <$> pieces value) (value : ValueRef) :
    context.operandFrom names text value =
      render names <$> context.piecesFrom names pieces value := by
  obtain rfl : text = fun value => render names <$> pieces value := funext each
  unfold operandFrom piecesFrom
  cases named : names.name? (.value value) with
  | some name =>
      simp only [map_pure, Piece.render_cons, Piece.text, named, Option.getD_some,
        Piece.render_nil, String.append_empty]
  | none =>
      cases context.value? value with
      | none => exact congrArg Except.ok String.append_empty.symm
      | some entry =>
          obtain ⟨type, kind, name⟩ := entry
          cases kind with
          | integer number =>
              simp only [map_bind, map_pure, Piece.render_cons, Piece.text, Piece.render_nil,
                String.append_empty, bind_pure]
          | array elements =>
              refine (congrArg (· >>= _) (mapM_render typedFrom_render)).trans ?_
              simp only [bind_map_left, map_bind, map_pure, Piece.render_append,
                Piece.render_cons, Piece.text, Piece.render_joined, Piece.render_nil,
                String.append_empty]
          | struct fields =>
              refine (congrArg (· >>= _) (mapM_render typedFrom_render)).trans ?_
              simp only [bind_map_left, map_bind, map_pure, render_structPieces]
          | function => exact congrArg Except.ok (render_symbolPieces value).symm
          | _ => exact congrArg Except.ok String.append_empty.symm

theorem operandText_render (value : ValueRef) :
    context.operandText names value = render names <$> context.operandPieces names value := by
  have within : ∀ budget value, context.operandWithin names budget value =
      render names <$> context.piecesWithin names budget value := by
    intro budget
    induction budget with
    | zero => exact fun value => rfl
    | succ budget inductionHypothesis =>
        intro value
        rw [operandWithin_succ, piecesWithin, operandFrom_render inductionHypothesis]
  exact within (value + 1) value

theorem typedOperand_render (value : ValueRef) :
    context.typedOperand names value = render names <$> context.typedPieces names value := by
  unfold typedOperand
  simp only [operandText_render]
  exact typedFrom_render value

theorem targetText_render (block : BlockRef) :
    context.targetText names block = render names (context.targetPieces names block) := by
  unfold targetText targetPieces
  cases named : names.name? (.block block) with
  | some name =>
      rw [Piece.render_cons, Piece.text, named, Option.getD_some, Piece.render_nil,
        String.append_empty]
  | none => exact String.append_empty.symm

theorem callText_render (type : TypeRef) (callee : ValueRef) (arguments : List ValueRef) :
    context.callText names type callee arguments =
      render names <$> context.callPieces names type callee arguments := by
  unfold callText callPieces
  rw [mapM_render typedOperand_render]
  simp only [bind_map_left, map_bind, map_pure, Piece.render_append, Piece.render_cons, Piece.text,
    Piece.render_joined, Piece.render_nil, render_symbolPieces, String.append_empty,
    String.append_assoc]

theorem codeText_render (type : TypeRef) (code : Instruction) :
    context.codeText names type code = render names <$> context.codePieces names type code := by
  cases code with
  | call callee arguments => exact callText_render type callee arguments
  | ret value =>
      cases value with
      | none => rfl
      | some value =>
          simp only [codeText, codePieces, typedOperand_render, bind_map_left, map_bind, map_pure,
            Piece.render_cons, Piece.text]
  | _ =>
      simp only [codeText, codePieces, typedOperand_render, operandText_render, targetText_render,
        bind_map_left, map_bind, map_pure, Piece.render_append, Piece.render_cons, Piece.text,
        Piece.render_nil, String.append_empty, String.append_assoc]

theorem instructionText_render (value : ValueRef) :
    context.instructionText names value =
      render names <$> context.instructionPieces names value := by
  unfold instructionText instructionPieces
  rw [map_bind]
  refine congrArg _ (funext fun entry => ?_)
  obtain ⟨type, kind, name⟩ := entry
  cases kind with
  | instruction block code =>
      simp only [codeText_render, bind_map_left, map_bind]
      cases named : names.name? (.value value) with
      | none => simp only [map_pure]
      | some name =>
          simp only [map_pure, Piece.render_cons, Piece.text, named, Option.getD_some,
            String.append_assoc]
  | _ => exact operandText_render value

variable {entry : FunctionEntry}

theorem parameterText_render (position : Nat) (parameter : ValueRef) :
    context.parameterText entry names position parameter =
      render names <$> context.parameterPieces entry names position parameter := by
  unfold parameterText parameterPieces
  simp only [map_bind]
  refine congrArg _ (funext fun value => congrArg _ (funext fun type => ?_))
  by_cases defined : entry.isDefinition = true
  · rw [if_pos defined, if_pos defined]
    cases named : names.name? (.value parameter) with
    | none => rfl
    | some name =>
        have blank : " %" = " " ++ "%" := rfl
        simp only [map_pure, Piece.render_cons, Piece.text, named, Option.getD_some,
          Piece.render_nil, String.append_empty, String.append_assoc, blank]
  · rw [if_neg defined, if_neg defined]
    exact congrArg Except.ok String.append_empty.symm

theorem parameterTexts_render (position : Nat) (parameters : List ValueRef) :
    context.parameterTexts entry names position parameters =
      List.map (render names) <$> context.parametersPieces entry names position parameters := by
  induction parameters generalizing position with
  | nil => rfl
  | cons parameter parameters inductionHypothesis =>
      simp only [parameterTexts, parametersPieces, parameterText_render, inductionHypothesis,
        bind_map_left, map_bind, map_pure, List.map_cons]

theorem headText_render :
    context.headText entry names = render names <$> context.headPieces entry names := by
  unfold headText headPieces personalityPieces
  simp only [parameterTexts_render, bind_map_left, map_bind, map_pure]
  refine congrArg _ (funext fun result => congrArg _ (funext fun parameters =>
    congrArg _ (funext fun type => congrArg Except.ok ?_)))
  have listed : (if result.2 then parameters.map (render names) ++ ["..."]
      else parameters.map (render names)) =
      (if result.2 then parameters ++ [[.words "..."]] else parameters).map (render names) := by
    cases result.2 with
    | true =>
        rw [if_pos rfl, if_pos rfl, List.map_append]
        rfl
    | false => rfl
  rw [listed]
  cases entry.collector <;> cases entry.personality <;>
    simp only [Piece.render_append, Piece.render_cons, Piece.text, Piece.render_joined,
      Piece.render_nil, render_symbolPieces, String.append_empty, String.append_assoc]

theorem blockLines_render (block : BlockRef) :
    context.blockLines names block = render names <$> context.blockPieces names block := by
  unfold blockLines blockPieces
  rw [map_bind]
  refine congrArg _ (funext fun home => ?_)
  cases named : names.name? (.block block) with
  | none => rfl
  | some name =>
      dsimp only
      rw [mapM_render instructionText_render]
      simp only [bind_map_left, map_bind, map_pure]
      refine congrArg _ (funext fun lines => congrArg Except.ok ?_)
      have front : render names [.definition (.block block), .words ":\n"] = name ++ ":\n" := by
        simp only [Piece.render_cons, Piece.text, named, Option.getD_some, Piece.render_nil,
          String.append_empty]
      rw [← front]
      refine Piece.render_foldl (fun text line => ?_) _
      simp only [Piece.render_append, Piece.render_cons, Piece.text, Piece.render_nil,
        String.append_empty, String.append_assoc]

/-- The text of a function is that of its pieces under the names of its locals. -/
theorem functionText_render :
    context.functionText entry = (do
      let names ← context.localNames entry
      let pieces ← context.functionPieces entry names
      return render names pieces) := by
  unfold functionText
  refine congrArg _ (funext fun names => ?_)
  unfold functionPieces
  simp only [headText_render, bind_map_left, bind_assoc]
  refine congrArg _ (funext fun head => ?_)
  by_cases defined : entry.isDefinition = true
  · rw [if_pos defined, if_pos defined, mapM_render blockLines_render]
    simp only [bind_map_left, bind_assoc, pure_bind, Piece.render_append, Piece.render_cons,
      Piece.text, Piece.render_joined, Piece.render_nil, String.append_empty, String.append_assoc]
  · rw [if_neg defined, if_neg defined, pure_bind, Piece.render_append, Piece.render_cons,
      Piece.render_nil, Piece.text, String.append_empty]

end Text

end Context

end TypedIR
