import TypedIR.Proofs.Print.Mentions
import TypedIR.Proofs.Print.Total
import TypedIR.Proofs.Text.Bytes
import TypedIR.Proofs.Workspace.Constants
import TypedIR.Proofs.Workspace.Tasks

/-!
Contract: constants of bytes, from the content that they are built from to their text.

Owns:
- building such a constant at any time, which succeeds unless the content is too long or bytes are
  no type;
- its text behind its type as an operand of any function, from which the stored bytes and their
  number can be read, for as long as the context lives.

Does not own: how single bytes are written.
-/

namespace TypedIR

variable {σ : Type} {engine : Engine σ} {settings : Settings}

/-! ### Operands -/

namespace Context

variable {context : Context} {entry : FunctionEntry} {names : LocalNames} {value : ValueRef}
  {type : TypeRef} {content : List UInt8}

/-- The type and the text of a constant of bytes. -/
def quotedBytes (content : List UInt8) (text : List Char) : String :=
  "[" ++ toString content.length ++ " x i8] c\"" ++ String.ofList text ++ "\""

theorem requireTypeText_bytes (grounded : context.Grounded)
    (typed : context.TypesConstant type (.bytes content)) :
    context.requireTypeText type = .ok ("[" ++ toString content.length ++ " x i8]") := by
  obtain ⟨byte, length, known, counted, isByte⟩ := typed
  have element : context.tree? byte = some (.integer 8) := grounded.shape_integer_iff.mp isByte
  have tree : context.tree? type = some (.array (.integer 8) length) := by
    rw [grounded.tree_of_shape known, TypeShape.expand, element]
    rfl
  have text : context.typeText? (context.typeId type).index =
      some ("[" ++ toString content.length ++ " x i8]") := by
    have words : " x " ++ ("i" ++ toString (UInt32.toNat 8) ++ "]") = " x i8]" := by decide
    rw [typeText?, typeId, tree, Option.map_some, TypeTree.text, TypeTree.text, counted, ← words]
    simp only [String.append_assoc]
  have resolved : context.resolveType (context.typeId type) = .ok (.array byte length) :=
    resolveType_eq_ok.mpr ⟨rfl, known⟩
  rw [requireTypeText, formatType, resolved, ok_bind, text]
  rfl

/-- A constant of bytes is printed without regard to the function that it is an operand in. -/
theorem typedOperand_bytes (coherent : context.Coherent) (member : entry ∈ context.functions)
    (named : context.NamesLocals entry names) (held : context.Holds value type (.bytes content))
    (typed : context.TypesConstant type (.bytes content)) :
    context.typedOperand names value = .ok (quotedBytes content (Text.escapeBytes content)) := by
  have unnamed := unnamed_of_constant coherent member named held rfl
  have typeText := requireTypeText_bytes coherent.grounded typed
  obtain ⟨name, found⟩ := held
  have text : context.operandText names value =
      .ok ("c\"" ++ String.ofList (Text.escapeBytes content) ++ "\"") := by
    rw [operandText, operandWithin_succ, operandFrom, unnamed, found]
    rfl
  rw [typedOperand, found]
  refine bind_eq_ok.mpr ⟨_, typeText, bind_eq_ok.mpr ⟨_, text, congrArg Except.ok ?_⟩⟩
  have words : " x i8]" ++ (" " ++ "c\"") = " x i8] c\"" := by decide
  rw [quotedBytes, ← words]
  simp only [String.append_assoc]

end Context

namespace Workspace

variable {workspace : Workspace σ} {id : ContextId} {context : Context}

/-- What becomes of the attempt to build a constant of bytes, with a zero byte behind the content
when `terminated`. -/
structure StoresBytes (engine : Engine σ) (workspace : Workspace σ) (id : ContextId)
    (content : List UInt8) (terminated : Bool) : Prop where
  /-- A constant is built unless there are too many bytes or no type for them. -/
  built : (∃ value, ((Command.edit (.bytesConstant id content terminated)).run engine
      workspace).result = .ok (.handle (.value value))) ↔
    (storedBytes content terminated).length < UInt32.size ∧
      8 ≤ workspace.store.settings.maxIntegerWidth
  /-- From then on, whatever function it is an operand in, it is printed behind a type that tells
  the number of its bytes, as a text that they can be read from. -/
  printed : ∀ value, ((Command.edit (.bytesConstant id content terminated)).run engine
      workspace).result = .ok (.handle (.value value)) →
    ∀ later : List (Engine σ × Task), (∀ step ∈ later, step.2.target? ≠ some id) →
      ∃ last, (((Command.edit (.bytesConstant id content terminated)).run engine
          workspace).workspace.pursue later).1.store.context? id = some last ∧
        ∀ entry ∈ last.functions, ∃ names text, last.localNames entry = .ok names ∧
          last.typedOperand names value.index =
            .ok (Context.quotedBytes (storedBytes content terminated) text) ∧
          Text.Writes (storedBytes content terminated) text

section Building

variable {content : List UInt8} {terminated : Bool} {value : ValueId} {after : Context}

/-- What a context can build, a command builds in it. -/
theorem bytesConstant_done (engine : Engine σ)
    (found : workspace.store.context? id = some context)
    (made : context.bytesConstant workspace.store.settings content terminated =
      .ok (value, after)) :
    ((Command.edit (.bytesConstant id content terminated)).run engine workspace).result =
        .ok (.handle (.value value)) ∧
      Alters id after workspace
        ((Command.edit (.bytesConstant id content terminated)).run engine workspace).workspace := by
  obtain ⟨fits, wide, _⟩ := Context.bytesConstant_eq_ok.mp made
  have admissible : (Edit.bytesConstant id content terminated).Admissible
      workspace.store.settings :=
    ⟨(Settings.checkWidth_eq_ok.mp wide).2, length_storedBytes content terminated ▸ fits⟩
  have tagged : ∀ handle ∈ (Edit.bytesConstant id content terminated).handles,
      handle.tag = id := by
    intro handle listed
    rw [List.mem_singleton.mp listed]
    rfl
  obtain ⟨home, passed⟩ := Edit.screen_eq_ok tagged admissible
  refine edit_alters engine passed home found (Operation.map_eq_ok.mpr ⟨value, ?_, rfl⟩)
  rw [Operation.bytesConstant, Operation.guarded_effect, Operation.noted,
    Operation.reported_effect]
  exact made

theorem bytesConstant_made (found : workspace.store.context? id = some context)
    (answered : ((Command.edit (.bytesConstant id content terminated)).run engine
      workspace).result = .ok (.handle (.value value))) :
    ∃ after, context.bytesConstant workspace.store.settings content terminated =
      .ok (value, after) := by
  obtain ⟨_, other, after, lookup, done⟩ := edit_eq_ok.mp answered
  obtain rfl := Option.some.inj (found.symm.trans lookup)
  obtain ⟨built, applied, same⟩ := Operation.map_eq_ok.mp done
  obtain rfl : built = value := by
    injection same with same
    injection same
  rw [Operation.bytesConstant, Operation.guarded_effect, Operation.noted,
    Operation.reported_effect] at applied
  exact ⟨after, applied⟩

/-- The constant holds the bytes in the context that it is built in. -/
theorem bytesConstant_holds
    (made : context.bytesConstant settings content terminated = .ok (value, after)) :
    ∃ type, after.Holds value.index type (.bytes (storedBytes content terminated)) := by
  obtain ⟨_, _, _, _, type, last, _, _, pushed⟩ := Context.bytesConstant_eq_ok.mp made
  obtain ⟨rfl, rfl⟩ := Prod.mk.inj pushed
  exact ⟨type.index, Context.holds_pushValue.mpr (.inr ⟨rfl, rfl, rfl⟩)⟩

end Building

theorem storesBytes (settings : Settings) (native : σ) (earlier : List (Engine σ × Task))
    (engine : Engine σ)
    (found : ((start settings native).pursue earlier).1.store.context? id = some context)
    (content : List UInt8) (terminated : Bool) :
    StoresBytes engine ((start settings native).pursue earlier).1 id content terminated := by
  constructor
  case built =>
    constructor
    · rintro ⟨value, answered⟩
      obtain ⟨after, made⟩ := bytesConstant_made found answered
      obtain ⟨fits, wide, _⟩ := Context.bytesConstant_eq_ok.mp made
      exact ⟨fits, (Settings.checkWidth_eq_ok.mp wide).2⟩
    · rintro ⟨fits, wide⟩
      obtain ⟨⟨value, after⟩, made⟩ : ∃ result, context.bytesConstant
          ((start settings native).pursue earlier).1.store.settings content terminated =
            .ok result :=
        ⟨_, Context.bytesConstant_eq_ok.mpr ⟨fits,
          Settings.checkWidth_eq_ok.mpr ⟨by decide, wide⟩, _, _, _, _, rfl, rfl, rfl⟩⟩
      exact ⟨value, (bytesConstant_done engine found made).1⟩
  case printed =>
    intro value answered later spared
    obtain ⟨after, made⟩ := bytesConstant_made found answered
    obtain ⟨_, alters⟩ := bytesConstant_done engine found made
    obtain ⟨type, held⟩ := bytesConstant_holds made
    obtain ⟨last, lasts, still, coherent, typed⟩ :=
      built_data_stays settings native earlier engine _ alters.here held rfl spared
    refine ⟨last, lasts, fun entry member => ?_⟩
    obtain ⟨names, named, locals⟩ := coherent.namesLocals member
    exact ⟨names, _, named, Context.typedOperand_bytes coherent member locals still typed,
      Text.escapeBytes_writes _⟩

/-- Every string of bytes is written so that it can be read back, and constants of bytes are
printed so, with the number of the bytes in front. -/
theorem bytes_printed_losslessly (settings : Settings) (native : σ)
    (earlier : List (Engine σ × Task)) (engine : Engine σ)
    (found : ((start settings native).pursue earlier).1.store.context? id = some context) :
    (∀ bytes, Text.Writes bytes (Text.escapeBytes bytes)) ∧
      ∀ content terminated,
        StoresBytes engine ((start settings native).pursue earlier).1 id content terminated :=
  ⟨Text.escapeBytes_writes, storesBytes settings native earlier engine found⟩

/-- A context with a function that may have constants as operands. -/
def quotedRun : List (Engine ReferenceState × Task) :=
  let context : ContextId := ⟨0, 0⟩
  let commands : List Command :=
    [.createContext "quoted",
      .edit (.voidType context),
      .edit (.signatureType ⟨context, 0⟩ [] false),
      .edit (.declare context "f" ⟨context, 1⟩)]
  commands.map fun command => (.reference, .request (.command command))

/-- A quote, a backslash, two digits behind it, a line feed and a byte that is no ASCII. -/
def quotedRunContent : List UInt8 :=
  [0x22, 0x5C, 0x34, 0x31, 0x0A, 0xFF]

/-- The digits behind the backslash are not read as an escape, for the backslash is one. -/
theorem quotedRun_printed :
    (∀ content terminated, StoresBytes Engine.reference
        ((start .standard .start).pursue quotedRun).1 ⟨0, 0⟩ content terminated) ∧
      Text.escapeBytes quotedRunContent = "\\22\\5C41\\0A\\FF".toList ∧
      ((((Command.edit (.bytesConstant ⟨0, 0⟩ quotedRunContent true)).run Engine.reference
          ((start .standard .start).pursue quotedRun).1).workspace.store.context? ⟨0, 0⟩).bind
        fun context => context.functions.head?.map fun entry => do
          let names ← context.localNames entry
          context.typedOperand names 1) =
        some (.ok "[7 x i8] c\"\\22\\5C41\\0A\\FF\\00\"") := by
  have lives : (((start .standard .start).pursue quotedRun).1.store.context? ⟨0, 0⟩).isSome := by
    decide +kernel
  obtain ⟨context, found⟩ := Option.isSome_iff_exists.mp lives
  exact ⟨(bytes_printed_losslessly .standard ReferenceState.start quotedRun .reference found).2,
    by decide +kernel, by decide +kernel⟩

end Workspace

end TypedIR
