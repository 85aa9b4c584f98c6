import TypedIR.Proofs.Description.Growth

/-!
Contract: what building an operand comes to.

Owns:
- scopes that know the functions of the description and the types of their locals;
- finding functions by their written names;
- that an operand can be built exactly if it has a type, and then gives a value that
  carries the type and is the one that the operand stands for.
-/

namespace TypedIR.Description

open Construction

variable {terms : Terms} {description : Module} {scope : Scope} {types : Locals TypeTree}
  {context between after : Context}

/-! ### Lists of named things -/

section Lists

variable {α β : Type}

theorem exists_of_mem_left {related : α → β → Prop} {left : List α} {right : List β}
    (each : List.Forall₂ related left right) {item : α} (member : item ∈ left) :
    ∃ other ∈ right, related item other := by
  induction each with
  | nil => cases member
  | cons first _ inductionHypothesis =>
      rcases List.mem_cons.mp member with rfl | later
      · exact ⟨_, List.mem_cons_self, first⟩
      · obtain ⟨other, listed, holds⟩ := inductionHypothesis later
        exact ⟨other, List.mem_cons_of_mem _ listed, holds⟩

theorem exists_of_mem_right {related : α → β → Prop} {left : List α} {right : List β}
    (each : List.Forall₂ related left right) {item : β} (member : item ∈ right) :
    ∃ other ∈ left, related other item :=
  exists_of_mem_left (List.Forall₂.flip (R := fun item other => related other item) each) member

/-- Under a name two lists of the same names hold either nothing or things that are related. -/
theorem lookup_cases {related : α → β → Prop} {left : List (String × α)} {right : List (String × β)}
    (each : List.Forall₂ (fun first second => first.1 = second.1 ∧ related first.2 second.2)
      left right) (name : String) :
    (left.lookup name = none ∧ right.lookup name = none) ∨
      ∃ first second, left.lookup name = some first ∧ right.lookup name = some second ∧
        related first second := by
  induction each with
  | nil => exact .inl ⟨rfl, rfl⟩
  | @cons first second _ _ both _ inductionHypothesis =>
      obtain ⟨firstName, firstThing⟩ := first
      obtain ⟨secondName, secondThing⟩ := second
      obtain ⟨rfl, holds⟩ := both
      rw [List.lookup_cons, List.lookup_cons]
      cases name == firstName with
      | true => exact .inr ⟨firstThing, secondThing, rfl, rfl, holds⟩
      | false => exact inductionHypothesis

theorem lookup_map (list : List (String × α)) (view : α → β) (name : String) :
    (list.map fun entry => (entry.1, view entry.2)).lookup name =
      (list.lookup name).map view := by
  induction list with
  | nil => rfl
  | cons entry rest inductionHypothesis =>
      rw [List.map_cons, List.lookup_cons, List.lookup_cons, inductionHypothesis]
      cases name == entry.1 <;> rfl

end Lists

/-! ### Scopes -/

/-- The functions of the description are declared, and each name stands for a value of its type. -/
structure Scope.Knows (settings : Settings) (description : Module) (scope : Scope)
    (types : Locals TypeTree) (context : Context) : Prop where
  functions : List.Forall₂ (Function.Declared settings context) description.functions
    context.functions
  locals : List.Forall₂ (fun entry type => entry.1 = type.1 ∧ context.Carries entry.2 type.2)
    scope.locals types

/-- The names of a scope by positions. -/
def Scope.values (scope : Scope) : Locals ValueRef :=
  scope.locals.map fun entry => (entry.1, entry.2.index)

theorem Scope.Knows.onward {settings : Settings}
    (knows : scope.Knows settings description types context)
    (grown : context.Grown after) : scope.Knows settings description types after where
  functions := by
    rw [grown.functions]
    exact knows.functions.imp fun _ _ declared => declared.onward grown.toOnward
  locals := knows.locals.imp fun _ _ both => ⟨both.1, both.2.onward grown.toOnward⟩

/-! ### Functions -/

/-- A function of the context that the description calls by the written name. -/
structure FunctionFound (description : Module) (context : Context) (written : String)
    (found : FunctionId) : Prop where
  tagged : found.context = context.id
  named : context.functionNamed? (withoutMark '@' written) = some found.index
  known : ∃ function entry, description.Names written function ∧
    context.function? found.index = some entry ∧
    context.tree? entry.signature = some function.signature

/-- A written name finds a function exactly if it names one of the description. -/
theorem findFunction_meets (drafted : context.Drafted terms.settings)
    (functions : List.Forall₂ (Function.Declared terms.settings context) description.functions
      context.functions) (written : String) :
    Meets terms (findFunction written) context
      (∃ function, description.Names written function)
      fun found after => after = context ∧ FunctionFound description context written found := by
  apply meets_bind_context
  cases found : context.functionNamed? (withoutMark '@' written) with
  | none =>
      apply meets_fail
      rintro ⟨function, listed, named, proper⟩
      obtain ⟨entry, _, declared⟩ := exists_of_mem_left functions listed
      have missing := drafted.distinct.functionNamed?_eq_some.mpr ⟨proper, declared.named⟩
      rw [named, found] at missing
      cases missing
  | some self =>
      obtain ⟨proper, named⟩ := Context.functionName?_of_functionNamed? found
      obtain ⟨⟨entry, member, rfl⟩, _⟩ := Context.functionName?_eq_some.mp named
      obtain ⟨function, listed, declared⟩ := exists_of_mem_right functions member
      have sameName : function.name = withoutMark '@' written :=
        Option.some.inj (declared.named.symm.trans named)
      have names : description.Names written function := ⟨listed, sameName, sameName ▸ proper⟩
      have distinct := drafted.regular.coherent.owned.functions.distinct
      exact meets_pure ⟨function, names⟩
        ⟨rfl, rfl, found, function, entry, names, Context.function?_of_mem distinct member,
          declared.signature⟩

/-! ### Operands -/

/-- The value carries the type of the operand and is what the operand stands for. -/
structure Operand.Stands (limit : UInt32) (description : Module) (types : Locals TypeTree)
    (locals : Locals ValueRef) (context : Context) (operand : Operand) (value : ValueId) :
    Prop where
  typed : ∃ type, operand.HasType limit description types type ∧ context.Carries value type
  denotes : operand.Denotes context locals value.index

/-- A value for an operand, where nothing but constants and types has come. -/
structure OperandBuilt (limit : UInt32) (description : Module) (types : Locals TypeTree)
    (locals : Locals ValueRef) (before : Context) (operand : Operand) (value : ValueId)
    (after : Context) : Prop
    extends operand.Stands limit description types locals after value where
  grown : before.Grown after
  blocks : after.block? = before.block?

theorem withoutMark_append (mark : Char) (name : String) :
    withoutMark mark (String.singleton mark ++ name) = name := by
  simp [withoutMark]

theorem text_cases (text : String) :
    (∃ name, text = "%" ++ name) ∨ (∃ name, text = "@" ++ name) ∨
      ∀ first rest, text.toList = first :: rest → first ≠ '%' ∧ first ≠ '@' := by
  cases characters : text.toList with
  | nil => exact .inr (.inr fun _ _ equal => by cases equal)
  | cons first rest =>
      have marked : text = String.singleton first ++ String.ofList rest := by
        rw [← String.toList_inj]
        simp [characters]
      by_cases isLocal : first = '%'
      · subst isLocal
        exact .inl ⟨String.ofList rest, marked⟩
      · by_cases isFunction : first = '@'
        · subst isFunction
          exact .inr (.inl ⟨String.ofList rest, marked⟩)
        · refine .inr (.inr ?_)
          rintro _ _ ⟨⟩
          exact ⟨isLocal, isFunction⟩

theorem buildOperand_named (name : String) :
    buildOperand terms scope (.reference ("%" ++ name)) = scope.findLocal name := by
  simp [buildOperand]

theorem buildOperand_function (name : String) :
    buildOperand terms scope (.reference ("@" ++ name)) =
      (findFunction ("@" ++ name) >>= fun function => pure function.toValue) := by
  simp [buildOperand]

theorem buildOperand_unmarked {text : String}
    (unmarked : ∀ first rest, text.toList = first :: rest → first ≠ '%' ∧ first ≠ '@') :
    buildOperand terms scope (.reference text) = fail (.malformedOperand text) := by
  simp only [buildOperand]
  split
  · exact absurd rfl (unmarked _ _ (by assumption)).1
  · exact absurd rfl (unmarked _ _ (by assumption)).2
  · rfl

theorem findLocal_meets (knows : scope.Knows terms.settings description types context)
    (name : String) :
    Meets terms (scope.findLocal name) context
      (∃ type, (Operand.reference ("%" ++ name)).HasType terms.settings.maxIntegerWidth
        description types type)
      (OperandBuilt terms.settings.maxIntegerWidth description types scope.values context
        (.reference ("%" ++ name))) := by
  unfold Scope.findLocal
  rcases lookup_cases knows.locals name with
    ⟨missing, untyped⟩ | ⟨value, type, found, latest, carries⟩
  · rw [missing]
    apply meets_fail
    rintro ⟨type, typed⟩
    rw [Operand.hasType_named_iff, untyped] at typed
    cases typed
  · rw [found]
    refine meets_pure ⟨type, .named latest⟩
      ⟨⟨⟨type, .named latest, carries⟩, .named ?_⟩, .refl context, rfl⟩
    rw [Scope.values, lookup_map, found]
    rfl

/-- A constant at the end of the table, behind types that have come. -/
theorem OperandBuilt.of_pushConstant {settings : Settings} {locals : Locals ValueRef}
    {operand : Operand} {type : TypeId} {kind : ValueKind} {tree : TypeTree} {limit : UInt32}
    (drafted : between.Drafted settings) (grown : context.Grown between)
    (blocks : between.block? = context.block?) (known : between.tree? type.index = some tree)
    (typed : operand.HasType limit description types tree)
    (denotes : ∀ last : Context,
      last.value? between.values.size = some ⟨type.index, kind, ""⟩ →
      last.tree? type.index = some tree → operand.Denotes last locals between.values.size) :
    OperandBuilt limit description types locals context operand (between.pushConstant type kind).1
      (between.pushConstant type kind).2 where
  grown := grown.trans (Context.grown_pushValue drafted)
  blocks := blocks
  typed := ⟨tree, typed, Context.Carries.of_tree rfl Context.value?_pushValue rfl known⟩
  denotes := denotes _ Context.value?_pushValue known

section Build

variable (drafted : context.Drafted terms.settings)

include drafted

theorem functionOperand_meets (knows : scope.Knows terms.settings description types context)
    (name : String) :
    Meets terms (findFunction ("@" ++ name) >>= fun function => pure function.toValue) context
      (∃ type, (Operand.reference ("@" ++ name)).HasType terms.settings.maxIntegerWidth
        description types type)
      (OperandBuilt terms.settings.maxIntegerWidth description types scope.values context
        (.reference ("@" ++ name))) := by
  apply (findFunction_meets drafted knows.functions _).bind
  · rintro ⟨type, typed⟩
    obtain ⟨function, names, _⟩ := Operand.hasType_function_iff.mp typed
    exact ⟨function, names⟩
  · rintro found _ _ _ ⟨rfl, tagged, named, function, entry, names, lookup, known⟩
    have typed : (Operand.reference ("@" ++ name)).HasType terms.settings.maxIntegerWidth
        description types function.signature := .function names
    have signed := drafted.regular.coherent.owned.functions.signed entry
      (Context.mem_of_function? lookup).1
    rw [(Context.mem_of_function? lookup).2] at signed
    obtain ⟨text, held⟩ := signed
    refine meets_pure ⟨_, typed⟩ ⟨⟨⟨_, typed, ?_⟩, .function ?_⟩, .refl _, rfl⟩
    · exact Context.Carries.of_tree tagged held rfl known
    · rwa [show withoutMark '@' ("@" ++ name) = name from withoutMark_append '@' name] at named

theorem integerOperand_meets (number : Int64) (term : TypeTerm) :
    Meets terms (buildOperand terms scope (.integer number term)) context
      (∃ type, (Operand.integer number term).HasType terms.settings.maxIntegerWidth
        description types type)
      (OperandBuilt terms.settings.maxIntegerWidth description types scope.values context
        (.integer number term)) := by
  apply (lowerType_meets term drafted.regular).bind
  · rintro ⟨type, typed⟩
    obtain ⟨_, _, sized, _⟩ := Operand.hasType_integer_iff.mp typed
    exact .inr sized
  · intro type between steps lowers lowered
    have later := steps.drafted drafted
    have grown := Context.grown_of_retyped lowered.retyped fun _ _ known =>
      steps.tree? drafted.regular known
    have tagged : type.context = between.id := lowered.tagged.trans steps.id_eq.symm
    -- Of the terms that can be lowered, those of integers give integers.
    have isInteger : ∀ bits, between.shape? type.index = some (.integer bits) ↔
        term = .integer bits := by
      intro bits
      rw [later.regular.coherent.grounded.shape_integer_iff, lowered.known, Option.some.injEq]
      cases term <;> simp [TypeTerm.tree]
    apply meets_reported (.integerConstant type number) rfl tagged
    · intro value after done
      obtain ⟨_, bits, shape, equal⟩ := Context.integerConstant_eq_ok.mp done
      obtain ⟨rfl, rfl⟩ := Prod.mk.inj equal
      obtain rfl := (isInteger bits).mp shape
      have typed : (Operand.integer number (.integer bits)).HasType
          terms.settings.maxIntegerWidth description types (.integer bits) :=
        Operand.hasType_integer_iff.mpr
          ⟨bits, rfl, (TypeTerm.returnable_iff (by simp)).mp lowers, rfl⟩
      exact ⟨⟨_, typed⟩, .of_pushConstant later grown (Context.block?_of_retyped lowered.retyped)
        lowered.known typed fun _ held known => .integer held known⟩
    · rintro ⟨_, typed⟩
      obtain ⟨bits, isTerm, _⟩ := Operand.hasType_integer_iff.mp typed
      exact ⟨_, Context.integerConstant_eq_ok.mpr ⟨tagged, bits, (isInteger bits).mpr isTerm, rfl⟩⟩

theorem bytesOperand_meets (text : String) (terminated : Bool) :
    Meets terms (buildOperand terms scope (.bytes text terminated)) context
      (∃ type, (Operand.bytes text terminated).HasType terms.settings.maxIntegerWidth
        description types type)
      (OperandBuilt terms.settings.maxIntegerWidth description types scope.values context
        (.bytes text terminated)) := by
  have wide : terms.settings.checkWidth 8 = .ok () ↔ 8 ≤ terms.settings.maxIntegerWidth :=
    Settings.checkWidth_eq_ok.trans (and_iff_right (by decide))
  apply meets_bind_context
  apply meets_guarded (.bytesConstant context.id text.toUTF8.toList terminated) rfl rfl
  · rintro ⟨_, typed⟩
    obtain ⟨fitsWidth, fits, _⟩ := Operand.hasType_bytes_iff.mp typed
    rw [length_storedBytes] at fits
    rw [lengthOf_of_lt fits]
    exact wide.mpr fitsWidth
  · intro value after done
    obtain ⟨fits, fitsWidth, byte, between, type, last, isByte, isArray, equal⟩ :=
      Context.bytesConstant_eq_ok.mp done
    obtain ⟨rfl, rfl⟩ := Prod.mk.inj equal
    -- First the type of bytes comes, then that of their array.
    have byteInterned : Interned terms.settings context (.integer 8) byte between :=
      Context.interned_of_eq fitsWidth isByte
    have later := drafted.interned byteInterned
    have sized : SizedBy between.shape? byte.index := ⟨_, byteInterned.known, rfl⟩
    have interned : Interned terms.settings between (.array byte.index (.ofNat
        (storedBytes text.toUTF8.toList terminated).length)) type last :=
      Context.interned_of_eq sized isArray
    have byteTree : last.tree? byte.index = some (.integer 8) :=
      (Context.grown_of_interned later interned).trees _ _ (byteInterned.tree drafted.regular)
    have known := interned.tree later.regular
    rw [TypeShape.expand, byteTree] at known
    have typed : (Operand.bytes text terminated).HasType terms.settings.maxIntegerWidth description
        types _ := .bytes (wide.mp fitsWidth) fits
    refine ⟨⟨_, typed⟩, .of_pushConstant (later.interned interned) ?_ ?_ known typed
      fun _ held known => .bytes held known⟩
    · exact (Context.grown_of_interned drafted byteInterned).trans
        (Context.grown_of_interned later interned)
    · exact interned.blocks.trans byteInterned.blocks
  · rintro ⟨_, typed⟩
    obtain ⟨fitsWidth, fits, _⟩ := Operand.hasType_bytes_iff.mp typed
    exact ⟨_, Context.bytesConstant_eq_ok.mpr ⟨fits, wide.mpr fitsWidth, _, _, _, _, rfl, rfl, rfl⟩⟩

/-- An operand can be built if it has a type, and gives the value that it stands for. -/
theorem buildOperand_meets (knows : scope.Knows terms.settings description types context)
    (operand : Operand) :
    Meets terms (buildOperand terms scope operand) context
      (∃ type, operand.HasType terms.settings.maxIntegerWidth description types type)
      (OperandBuilt terms.settings.maxIntegerWidth description types scope.values context
        operand) := by
  cases operand with
  | reference text =>
      rcases text_cases text with ⟨name, rfl⟩ | ⟨name, rfl⟩ | unmarked
      · rw [buildOperand_named]
        exact findLocal_meets knows name
      · rw [buildOperand_function]
        exact functionOperand_meets drafted knows name
      · rw [buildOperand_unmarked unmarked]
        apply meets_fail
        rintro ⟨type, typed⟩
        rcases typed.marked with ⟨name, rfl⟩ | ⟨name, rfl⟩
        · exact (unmarked '%' name.toList (by simp)).1 rfl
        · exact (unmarked '@' name.toList (by simp)).2 rfl
  | integer number term => exact integerOperand_meets drafted number term
  | bytes text terminated => exact bytesOperand_meets drafted text terminated

end Build

end TypedIR.Description
