import TypedIR.Arena.System
import TypedIR.Proofs.Arena.Functions

/-!
Contract: every edit in place carries its operation out.

Owns:
- what is found out about a released context, and how soon;
- when a computation in place carries an operation out: it is refused where the operation is
  refused ahead of a look at its home, it meets a released home first, and in a live home it
  realizes the effect;
- that each edit does, in a store whose contexts are consistent.

Most operations have nothing to check ahead of their home. Those that have check it in the
same order in place.
-/

namespace TypedIR

open InPlace

/-! ### Released contexts -/

namespace Arena

variable {arena : Arena} {id : ContextId}

theorem contents_released (gone : arena.contents? id = none) :
    arena.contents id = .error (.released (.context id)) := by
  rw [contents, gone]

theorem typeKind_released (type : TypeId) (gone : arena.contents? type.context = none) :
    arena.typeKind type = .error (.released (.context type.context)) := by
  rw [typeKind, contents_released gone]
  rfl

theorem value_released (value : ValueId) (gone : arena.contents? value.context = none) :
    arena.value value = .error (.released (.context value.context)) := by
  rw [Arena.value, contents_released gone]
  rfl

theorem body_released (function : FunctionId) (gone : arena.contents? function.context = none) :
    arena.body function = .error (.released (.context function.context)) := by
  rw [body, contents_released gone]
  rfl

theorem block_released (block : BlockId) (gone : arena.contents? block.context = none) :
    arena.block block = .error (.released (.context block.context)) := by
  rw [Arena.block, contents_released gone]
  rfl

theorem typeIn_released (type : TypeId) (gone : arena.contents? type.context = none) :
    arena.typeIn type.context type = .error (.released (.context type.context)) := by
  rw [typeIn, if_neg (not_not_intro rfl), typeKind_released type gone]

theorem requireSized_released (type : TypeId) (gone : arena.contents? type.context = none) :
    arena.requireSized type.context type = .error (.released (.context type.context)) := by
  rw [requireSized, typeIn_released type gone]
  rfl

theorem requireConstant_released (value : ValueId) (gone : arena.contents? value.context = none) :
    arena.requireConstant value.context value = .error (.released (.context value.context)) := by
  rw [requireConstant, valueIn, if_neg (not_not_intro rfl), value_released value gone]
  rfl

theorem requireSite_released (function : FunctionId) (site : Site)
    (gone : arena.contents? function.context = none) :
    arena.requireSite function site = .error (.released (.context function.context)) := by
  rw [requireSite, body_released function gone]
  rfl

theorem functionName_released (function : FunctionId)
    (gone : arena.contents? function.context = none) :
    arena.functionName function = .error (.released (.context function.context)) := by
  rw [functionName, body_released function gone]
  rfl

theorem parameterPlace_released (value : ValueId) (gone : arena.contents? value.context = none) :
    arena.parameterPlace value = .error (.released (.context value.context)) := by
  rw [parameterPlace, value_released value gone]
  rfl

end Arena

namespace InPlace

variable {α β : Type} {arena : Arena} {home : ContextId}

/-- The computation does nothing but complain if the context is released. -/
def Awaits (work : InPlace Arena α) (arena : Arena) (home : ContextId) : Prop :=
  arena.contents? home = none → work arena = (.error (.released (.context home)), arena)

theorem awaits_read {query : Arena → Except Fault α} (released : arena.contents? home = none →
    query arena = .error (.released (.context home))) : (InPlace.read query).Awaits arena home :=
  fun gone => read_refused (released gone)

theorem Awaits.bind {first : InPlace Arena α} (awaits : first.Awaits arena home)
    (next : α → InPlace Arena β) : (first >>= next).Awaits arena home :=
  fun gone => bind_of_error (awaits gone)

theorem Awaits.map {work : InPlace Arena α} (awaits : work.Awaits arena home) (view : α → β) :
    (view <$> work).Awaits arena home :=
  awaits.bind fun value => pure (view value)

theorem awaits_check {query : Arena → Except Fault α} {value : α} {next : α → InPlace Arena β}
    (passed : query arena = .ok value) (awaits : (next value).Awaits arena home) :
    (InPlace.read query >>= next).Awaits arena home :=
  fun gone => (read_bind_of_ok passed).trans (awaits gone)

theorem awaits_within (work : InPlace Arena.Contents α) :
    (Arena.within home work).Awaits arena home := by
  intro gone
  unfold Arena.within
  rw [Arena.contents_released gone]

theorem awaits_intern (kind : Arena.TypeKind) : (Arena.intern home kind).Awaits arena home :=
  (awaits_within _).bind _

theorem awaits_alterBody (function : FunctionId) (change : Arena.Body → Arena.Body) :
    (Arena.alterBody function change).Awaits arena function.context :=
  (awaits_read (Arena.body_released function)).bind _

/-! ### Operations carried out -/

/-- The computation does to the arena of a store what the operation does to the store. -/
structure CarriesOut (work : InPlace Arena α) (operation : Operation α) (store : Store) :
    Prop where
  screened : ∀ fault, operation.screen = .error fault →
    work store.arena = (.error fault, store.arena)
  awaits : operation.screen = .ok () → work.Awaits store.arena operation.home
  realizes : operation.screen = .ok () → ∀ context, store.Holds context →
    context.id = operation.home → work.Realizes (operation.effect context).1 store context

variable {work : InPlace Arena α} {operation : Operation α} {store : Store}

theorem CarriesOut.map (carries : work.CarriesOut operation store) (view : α → β) :
    (view <$> work).CarriesOut (operation.map view) store where
  screened fault refused := bind_of_error (carries.screened fault refused)
  awaits passed := (carries.awaits passed).map view
  realizes passed context holds home := (carries.realizes passed context holds home).map view

/-- With nothing to check ahead of the home, the first look shows whether it is live. -/
theorem carriesOut_open (home : ContextId) (here : operation.home = home)
    (passes : operation.screen = .ok ())
    (awaits : work.Awaits store.arena home)
    (realizes : ∀ context, store.Holds context → context.id = home →
      work.Realizes (operation.effect context).1 store context) :
    work.CarriesOut operation store where
  screened fault refused := by
    rw [passes] at refused
    cases refused
  awaits _ := here ▸ awaits
  realizes _ context holds same := realizes context holds (same.trans here)

/-- Instructions look at their block first. -/
theorem carriesOut_inBlock {block : BlockId} {next : Arena.Block → InPlace Arena β}
    {operation : Operation β} (here : operation.home = block.context)
    (passes : operation.screen = .ok ())
    (realizes : ∀ context position, store.Holds context → block = context.blockId position →
      (InPlace.read (fun arena => arena.block block) >>= next).Realizes
        (operation.effect context).1 store context) :
    (InPlace.read (fun arena => arena.block block) >>= next).CarriesOut operation store := by
  refine carriesOut_open block.context here passes
    ((awaits_read (Arena.block_released block)).bind _) fun context holds same => ?_
  refine realizes context block.index holds ?_
  rw [Context.blockId, same]

theorem carriesOut_guarded (home : ContextId) {screen : Except Fault Unit}
    (here : operation.home = home)
    (passes : operation.screen = .ok ())
    (screened : ∀ fault, screen = .error fault → work store.arena = (.error fault, store.arena))
    (awaits : screen = .ok () → work.Awaits store.arena home)
    (realizes : ∀ context, store.Holds context → context.id = home →
      work.Realizes (operation.effect context).1 store context) :
    work.CarriesOut (operation.guarded screen) store := by
  have same : (operation.guarded screen).screen = screen := by
    show (screen >>= fun _ => operation.screen) = screen
    rw [passes]
    cases screen <;> rfl
  refine ⟨fun fault refused => screened fault (same ▸ refused), fun passed => ?_,
    fun _ context holds home => realizes context holds (home.trans here)⟩
  exact here ▸ awaits (same ▸ passed)

end InPlace

/-! ### Consistent contexts -/

/-- What operations in place find in a live context. -/
structure Context.Consistent (settings : Settings) (context : Context) : Prop where
  coherent : context.Coherent
  canonical : context.Canonical settings
  distinct : context.DistinctNames

/-- All live contexts are consistent, and found under their own identities. -/
def Store.Consistent (store : Store) : Prop :=
  ∀ id context, store.context? id = some context →
    context.id = id ∧ context.Consistent store.settings

theorem Store.Consistent.of_holds {store : Store} (consistent : store.Consistent)
    {context : Context} (holds : store.Holds context) : context.Consistent store.settings :=
  (consistent context.id context holds).2

/-! ### Checks ahead of the home -/

namespace Operation

variable {store : Store}

theorem integerType_carriedOut (home : ContextId) (bits : UInt32) :
    (Arena.integerType home bits).CarriesOut (integerType store.settings home bits) store := by
  apply carriesOut_guarded home rfl rfl
  · exact fun _ refused => read_bind_of_error refused
  · exact fun passed => awaits_check passed (awaits_intern _)
  · rintro context holds rfl
    exact holds.integerType bits

/-- A first type of another context is refused ahead of all look-ups. -/
theorem typeIn_screened {arena : Arena} {home : ContextId} {type : TypeId} {fault : Fault}
    (refused : requireHomeType home (some type) = .error fault) :
    arena.typeIn home type = .error fault := by
  rw [requireHomeType] at refused
  rw [Arena.typeIn]
  by_cases foreign : type.context ≠ home
  · rw [if_pos foreign] at refused ⊢
    exact congrArg Except.error (Except.error.inj refused)
  · rw [if_neg foreign] at refused
    cases refused

theorem home_of_requireHomeType {home : ContextId} {type : TypeId}
    (passed : requireHomeType home (some type) = .ok ()) : type.context = home := by
  by_contra foreign
  rw [requireHomeType, if_pos foreign] at passed
  cases passed

theorem requireHomeValue_eq_error {home : ContextId} {handle : Handle} {fault : Fault}
    (refused : requireHomeValue home (some handle) = .error fault) :
    handle.tag ≠ home ∧ fault = .foreignValue handle home := by
  rw [requireHomeValue] at refused
  by_cases foreign : handle.tag ≠ home
  · rw [if_pos foreign] at refused
    exact ⟨foreign, (Except.error.inj refused).symm⟩
  · rw [if_neg foreign] at refused
    cases refused

theorem home_of_requireHomeValue {home : ContextId} {handle : Handle}
    (passed : requireHomeValue home (some handle) = .ok ()) : handle.tag = home := by
  by_contra foreign
  rw [requireHomeValue, if_pos foreign] at passed
  cases passed

theorem structType_carriedOut (home : ContextId) (fields : List TypeId) (packed : Bool) :
    (Arena.structType home fields packed).CarriesOut (structType home fields packed) store := by
  apply carriesOut_guarded home rfl rfl
  · intro fault refused
    cases fields with
    | nil => cases refused
    | cons first rest =>
        apply read_bind_of_error
        show (store.arena.requireSized home first >>= fun _ => _) = _
        rw [Arena.requireSized, typeIn_screened refused]
        rfl
  · intro passed
    cases fields with
    | nil => exact awaits_check rfl (awaits_intern _)
    | cons first rest =>
        obtain rfl := home_of_requireHomeType passed
        refine (awaits_read fun gone => ?_).bind _
        show (store.arena.requireSized first.context first >>= fun _ => _) = _
        rw [Arena.requireSized_released first gone]
        rfl
  · rintro context holds rfl
    exact holds.structType fields packed

theorem declare_carriedOut (consistent : store.Consistent) (home : ContextId) (name : String)
    (signature : TypeId) : (Arena.declare home name signature).CarriesOut
      (declare store.settings home name signature) store := by
  apply carriesOut_guarded home rfl rfl
  · intro fault refused
    exact read_bind_of_error (typeIn_screened refused)
  · intro passed
    obtain rfl := home_of_requireHomeType passed
    exact (awaits_read (Arena.typeIn_released signature)).bind _
  · rintro context holds rfl
    have sound := consistent.of_holds holds
    exact holds.declare sound.coherent.owned.functions sound.distinct name signature

theorem arrayConstant_carriedOut (consistent : store.Consistent) (element : TypeId)
    (values : List ValueId) :
    (Arena.arrayConstant element values).CarriesOut (arrayConstant element values) store := by
  obtain ⟨home, element⟩ := element
  apply carriesOut_guarded home rfl rfl
  · intro fault refused
    cases counted : lengthOf values.length with
    | error other =>
        rw [counted] at refused
        obtain rfl : other = fault := Except.error.inj refused
        exact read_bind_of_error counted
    | ok length =>
        rw [counted] at refused
        cases refused
  · intro passed
    cases counted : lengthOf values.length with
    | error other =>
        rw [counted] at passed
        cases passed
    | ok length =>
        exact awaits_check counted ((awaits_read (Arena.typeKind_released ⟨home, element⟩)).bind _)
  · rintro context holds rfl
    exact holds.arrayConstant (consistent.of_holds holds).coherent.owned.functions.inside element
      values

theorem bytesConstant_carriedOut (consistent : store.Consistent) (home : ContextId)
    (content : List UInt8) (terminated : Bool) :
    (Arena.bytesConstant home content terminated).CarriesOut
      (bytesConstant store.settings home content terminated) store := by
  apply carriesOut_guarded home rfl rfl
  · intro fault refused
    cases counted : lengthOf (content.length + if terminated then 1 else 0) with
    | error other =>
        rw [counted] at refused
        obtain rfl : other = fault := Except.error.inj refused
        exact read_bind_of_error counted
    | ok length =>
        rw [counted] at refused
        have narrow : Arena.integerType home 8 store.arena = (.error fault, store.arena) :=
          read_bind_of_error refused
        refine (bind_of_ok (congrArg (·, store.arena) counted)).trans ?_
        exact bind_of_error narrow
  · intro passed
    cases counted : lengthOf (content.length + if terminated then 1 else 0) with
    | error other =>
        rw [counted] at passed
        cases passed
    | ok length =>
        rw [counted] at passed
        have byte : (Arena.integerType home 8).Awaits store.arena home :=
          awaits_check passed (awaits_intern _)
        refine awaits_check counted ?_
        exact byte.bind _
  · rintro context holds rfl
    exact holds.bytesConstant (consistent.of_holds holds).coherent.owned.functions.inside content
      terminated

theorem structConstant_carriedOut (consistent : store.Consistent) (home : ContextId)
    (values : List ValueId) (packed : Bool) :
    (Arena.structConstant home values packed).CarriesOut (structConstant home values packed)
      store := by
  apply carriesOut_guarded home rfl rfl
  · intro fault refused
    cases values with
    | nil => cases refused
    | cons first rest =>
        obtain ⟨foreign, rfl⟩ := requireHomeValue_eq_error refused
        apply read_bind_of_error
        have refused : store.arena.valueIn home first =
            .error (.foreignValue (.value first) home) :=
          if_pos foreign
        rw [List.mapM_cons, Arena.requireConstant, refused]
        rfl
  · intro passed
    cases values with
    | nil => exact awaits_check rfl (Awaits.bind (awaits_check rfl (awaits_intern _)) _)
    | cons first rest =>
        obtain rfl : first.context = home := home_of_requireHomeValue passed
        refine (awaits_read fun gone => ?_).bind _
        rw [List.mapM_cons, Arena.requireConstant_released first gone]
        rfl
  · rintro context holds rfl
    exact holds.structConstant (consistent.of_holds holds).coherent.owned.functions.inside values
      packed

theorem setPersonality_carriedOut (function personality : FunctionId) :
    (Arena.setPersonality function personality).CarriesOut
      (setPersonality function personality) store := by
  obtain ⟨home, function⟩ := function
  apply carriesOut_guarded home rfl rfl
  · intro fault refused
    obtain ⟨foreign, rfl⟩ := requireHomeValue_eq_error refused
    have started : Arena.setPersonality ⟨home, function⟩ personality =
        refuse (.foreignValue (.function personality) home) := if_pos foreign
    rw [started]
    rfl
  · intro passed
    obtain rfl : personality.context = home := home_of_requireHomeValue passed
    have started : Arena.setPersonality ⟨personality.context, function⟩ personality =
        (InPlace.read (fun arena => arena.body personality) >>= fun _ =>
          Arena.alterBody ⟨personality.context, function⟩ fun body =>
            { body with personality := some personality }.edited) := if_neg (not_not_intro rfl)
    rw [started]
    exact (awaits_read (Arena.body_released personality)).bind _
  · rintro context holds rfl
    exact holds.setPersonality function personality

end Operation

/-! ### Edits -/

theorem Edit.carriesOut {store : Store} (consistent : store.Consistent) (change : Edit) :
    change.inPlace.CarriesOut (change.operation store.settings) store := by
  cases change with
  | setModuleName home name =>
      refine CarriesOut.map ?_ unitAnswer
      refine carriesOut_open home rfl rfl (awaits_within _) ?_
      rintro context holds rfl
      exact (holds.setModuleName name).realizes
  | voidType home =>
      refine CarriesOut.map ?_ typeAnswer
      refine carriesOut_open home rfl rfl (awaits_intern _) ?_
      rintro context holds rfl
      exact (holds.intern .void).realizes
  | labelType home =>
      refine CarriesOut.map ?_ typeAnswer
      refine carriesOut_open home rfl rfl (awaits_intern _) ?_
      rintro context holds rfl
      exact (holds.intern .label).realizes
  | integerType home bits => exact (Operation.integerType_carriedOut home bits).map typeAnswer
  | arrayType element length =>
      obtain ⟨home, element⟩ := element
      refine CarriesOut.map ?_ typeAnswer
      refine carriesOut_open home rfl rfl
        ((awaits_read (Arena.requireSized_released ⟨home, element⟩)).bind _) ?_
      rintro context holds rfl
      exact holds.arrayType element length
  | structType home fields packed =>
      exact (Operation.structType_carriedOut home fields packed).map typeAnswer
  | signatureType result parameters variadic =>
      obtain ⟨home, result⟩ := result
      refine CarriesOut.map ?_ typeAnswer
      refine carriesOut_open home rfl rfl
        ((awaits_read (Arena.typeIn_released ⟨home, result⟩)).bind _) ?_
      rintro context holds rfl
      exact holds.signatureType result parameters variadic
  | integerConstant type number =>
      obtain ⟨home, type⟩ := type
      refine CarriesOut.map ?_ valueAnswer
      refine carriesOut_open home rfl rfl
        ((awaits_read (Arena.typeKind_released ⟨home, type⟩)).bind _) ?_
      rintro context holds rfl
      have sound := consistent.of_holds holds
      exact holds.integerConstant sound.coherent.owned.functions.inside sound.canonical type number
  | undefined type =>
      obtain ⟨home, type⟩ := type
      refine CarriesOut.map ?_ valueAnswer
      refine carriesOut_open home rfl rfl
        ((awaits_read (Arena.typeKind_released ⟨home, type⟩)).bind _) ?_
      rintro context holds rfl
      exact holds.undefined (consistent.of_holds holds).coherent.owned.functions.inside type
  | rename value name =>
      obtain ⟨home, value⟩ := value
      refine CarriesOut.map ?_ unitAnswer
      refine carriesOut_open home rfl rfl
        ((awaits_read (Arena.value_released ⟨home, value⟩)).bind _) ?_
      rintro context holds rfl
      have sound := consistent.of_holds holds
      exact holds.rename sound.coherent.owned sound.distinct value name
  | appendBlock function name =>
      obtain ⟨home, function⟩ := function
      refine CarriesOut.map ?_ blockAnswer
      refine carriesOut_open home rfl rfl
        ((awaits_read (Arena.body_released ⟨home, function⟩)).bind _) ?_
      rintro context holds rfl
      exact holds.appendBlock function name
  | clearPersonality function =>
      obtain ⟨home, function⟩ := function
      refine CarriesOut.map ?_ unitAnswer
      refine carriesOut_open home rfl rfl (awaits_alterBody ⟨home, function⟩ _) ?_
      rintro context holds rfl
      exact holds.clearPersonality function
  | setCollector function strategy =>
      obtain ⟨home, function⟩ := function
      refine CarriesOut.map ?_ unitAnswer
      refine carriesOut_open home rfl rfl (awaits_alterBody ⟨home, function⟩ _) ?_
      rintro context holds rfl
      exact holds.setCollector function strategy
  | deleteFunction function =>
      obtain ⟨home, function⟩ := function
      refine CarriesOut.map ?_ unitAnswer
      refine carriesOut_open home rfl rfl
        ((awaits_read (Arena.functionName_released ⟨home, function⟩)).bind _) ?_
      rintro context holds rfl
      have sound := consistent.of_holds holds
      exact holds.deleteFunction sound.coherent.owned sound.distinct function
  | addAttribute function site value =>
      obtain ⟨home, function⟩ := function
      refine CarriesOut.map ?_ unitAnswer
      refine carriesOut_open home rfl rfl
        ((awaits_read (Arena.requireSite_released ⟨home, function⟩ site)).bind _) ?_
      rintro context holds rfl
      exact holds.addAttribute function site value
  | addTargetAttribute function key value =>
      obtain ⟨home, function⟩ := function
      refine CarriesOut.map ?_ unitAnswer
      refine carriesOut_open home rfl rfl
        ((awaits_read (Arena.requireSite_released ⟨home, function⟩ .function)).bind _) ?_
      rintro context holds rfl
      exact holds.addAttribute function .function (.string key value)
  | removeAttribute function site key =>
      obtain ⟨home, function⟩ := function
      refine CarriesOut.map ?_ unitAnswer
      refine carriesOut_open home rfl rfl
        ((awaits_read (Arena.requireSite_released ⟨home, function⟩ site)).bind _) ?_
      rintro context holds rfl
      exact holds.removeAttribute (consistent.of_holds holds).coherent.owned.functions function site
        key
  | setAlignment value align =>
      obtain ⟨home, value⟩ := value
      refine CarriesOut.map ?_ unitAnswer
      refine carriesOut_open home rfl rfl
        ((awaits_read (Arena.parameterPlace_released ⟨home, value⟩)).bind _) ?_
      rintro context holds rfl
      exact holds.setAlignment value align
  | binary block operator left right name =>
      refine CarriesOut.map ?_ valueAnswer
      refine carriesOut_inBlock rfl rfl ?_
      rintro context block holds rfl
      exact holds.binary (consistent.of_holds holds).coherent.owned block operator left right name
  | compare block predicate left right name =>
      refine CarriesOut.map ?_ valueAnswer
      refine carriesOut_inBlock rfl rfl ?_
      rintro context block holds rfl
      exact holds.compare (consistent.of_holds holds).coherent.owned block predicate left right name
  | select block condition thenValue elseValue name =>
      refine CarriesOut.map ?_ valueAnswer
      refine carriesOut_inBlock rfl rfl ?_
      rintro context block holds rfl
      exact holds.select (consistent.of_holds holds).coherent.owned block condition thenValue
        elseValue name
  | call block callee arguments name =>
      refine CarriesOut.map ?_ valueAnswer
      refine carriesOut_inBlock rfl rfl ?_
      rintro context block holds rfl
      exact holds.call (consistent.of_holds holds).coherent.owned block callee arguments name
  | ret block value =>
      refine CarriesOut.map ?_ valueAnswer
      refine carriesOut_inBlock rfl rfl ?_
      rintro context block holds rfl
      exact holds.ret (consistent.of_holds holds).coherent.owned block value
  | branch block target =>
      refine CarriesOut.map ?_ valueAnswer
      refine carriesOut_inBlock rfl rfl ?_
      rintro context block holds rfl
      exact holds.branch (consistent.of_holds holds).coherent.owned block target
  | condBranch block condition thenBlock elseBlock =>
      refine CarriesOut.map ?_ valueAnswer
      refine carriesOut_inBlock rfl rfl ?_
      rintro context block holds rfl
      exact holds.condBranch (consistent.of_holds holds).coherent.owned block condition thenBlock
        elseBlock
  | unreachable block =>
      refine CarriesOut.map ?_ valueAnswer
      refine carriesOut_inBlock rfl rfl ?_
      rintro context block holds rfl
      exact holds.unreachable (consistent.of_holds holds).coherent.owned block
  | arrayConstant element values =>
      exact (Operation.arrayConstant_carriedOut consistent element values).map valueAnswer
  | bytesConstant home content terminated =>
      exact (Operation.bytesConstant_carriedOut consistent home content terminated).map valueAnswer
  | structConstant home values packed =>
      exact (Operation.structConstant_carriedOut consistent home values packed).map valueAnswer
  | declare home name signature =>
      exact (Operation.declare_carriedOut consistent home name signature).map functionAnswer
  | setPersonality function personality =>
      exact (Operation.setPersonality_carriedOut function personality).map unitAnswer

end TypedIR
