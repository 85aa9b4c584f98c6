import TypedIR.Proofs.Arena.Names

/-!
Contract: deletion removes a function from every store that tells of it, and nothing else.

Owns:
- what a function comprises among the values: itself, its parameters, and the instructions
  in its blocks; and that the entries of these say so;
- what is left of the contents of a context, store by store;
- that in every reachable system a live function can be deleted, and what that leaves of
  the system, for every engine.

Does not own: handles of what was deleted, which stay refused.
-/

namespace TypedIR

namespace Arena

namespace Contents

variable {contents : Contents} {function other : FunctionId} {body otherBody : Body}
  {value : ValueId} {type : TypeId} {kind : ValueKind}

/-- The value is the function, a parameter of it, or an instruction in one of its blocks. -/
def Comprises (contents : Contents) (function : FunctionId) (body : Body) (value : ValueId) :
    Prop :=
  value = function.toValue ∨ value ∈ body.parameters ∨
    ∃ block ∈ body.blocks, ∃ home, contents.HasBlock block home ∧ value ∈ home.instructions

/-- The value names the function as its owner, an instruction by way of its block. -/
def OwnedBy (contents : Contents) (function : FunctionId) (value : ValueId) : ValueKind → Prop
  | .function => value = function.toValue
  | .parameter owner _ => owner = function
  | .instruction block _ => ∃ home, contents.HasBlock block home ∧ home.function = function
  | _ => False

/-! ### Entries are known by their handles -/

theorem Holds.unique {otherType : TypeId} {otherKind : ValueKind}
    (first : contents.Holds value type kind) (second : contents.Holds value otherType otherKind) :
    type = otherType ∧ kind = otherKind := by
  obtain ⟨_, _, firstFound⟩ := first
  obtain ⟨_, _, secondFound⟩ := second
  cases firstFound.symm.trans secondFound
  exact ⟨rfl, rfl⟩

theorem HasBlock.unique {block : BlockId} {home otherHome : Block}
    (first : contents.HasBlock block home) (second : contents.HasBlock block otherHome) :
    home = otherHome := Option.some.inj (first.2.symm.trans second.2)

theorem HasBody.unique (first : contents.HasBody function body)
    (second : contents.HasBody function otherBody) : body = otherBody :=
  Option.some.inj (first.2.symm.trans second.2)

/-- No value has two owners. -/
theorem OwnedBy.unique (first : contents.OwnedBy function value kind)
    (second : contents.OwnedBy other value kind) : function = other := by
  cases kind with
  | function =>
      obtain ⟨tag, index⟩ := function
      obtain ⟨otherTag, otherIndex⟩ := other
      cases (first.symm.trans second : (⟨tag, index⟩ : ValueId) = ⟨otherTag, otherIndex⟩)
      rfl
  | parameter owner position => exact first.symm.trans second
  | instruction block code =>
      obtain ⟨home, found, rfl⟩ := first
      obtain ⟨otherHome, otherFound, rfl⟩ := second
      rw [found.unique otherFound]
  | _ => exact first.elim

/-! ### What a function comprises -/

namespace Owned

variable (owned : contents.Owned) (live : contents.HasBody function body)

include owned live

theorem holds_parameter (listed : value ∈ body.parameters) :
    ∃ type position, contents.Holds value type (.parameter function position) := by
  obtain ⟨result, types, variadic, _, counted, each⟩ := owned.parameters function body live
  obtain ⟨position, inside, placed⟩ := List.getElem_of_mem listed
  obtain ⟨type, typed⟩ : ∃ type, types[position]? = some type :=
    ⟨_, List.getElem?_eq_getElem (counted ▸ inside)⟩
  exact ⟨type, position,
    each position value type (List.getElem?_eq_some_iff.mpr ⟨inside, placed⟩) typed⟩

/-- All that a function comprises is live, and names it. -/
theorem comprised (comprised : contents.Comprises function body value) :
    ∃ type kind, contents.Holds value type kind ∧ contents.OwnedBy function value kind := by
  rcases comprised with rfl | parameter | ⟨block, listed, home, found, inside⟩
  · exact ⟨_, _, owned.signed function body live, rfl⟩
  · obtain ⟨type, position, held⟩ := owned.holds_parameter live parameter
    exact ⟨type, _, held, rfl⟩
  · obtain ⟨type, code, held⟩ := ((owned.instructions block home found).2 value).mp inside
    obtain ⟨sameHome, sameFound, owner⟩ := ((owned.blocks function body live).2 block).mp listed
    exact ⟨type, _, held, sameHome, sameFound, owner⟩

theorem comprises_iff (held : contents.Holds value type kind) :
    contents.Comprises function body value ↔ contents.OwnedBy function value kind := by
  constructor
  · intro comprised
    obtain ⟨_, _, sameHeld, names⟩ := owned.comprised live comprised
    rwa [(held.unique sameHeld).2]
  · intro names
    cases kind with
    | function => exact .inl names
    | parameter owner position =>
        obtain rfl : owner = function := names
        obtain ⟨sameBody, sameLive, placed⟩ := owned.parameterOwners _ _ _ _ held
        rw [live.unique sameLive]
        exact .inr (.inl (List.mem_of_getElem? placed))
    | instruction block code =>
        obtain ⟨home, found, owner⟩ := names
        have listed := ((owned.blocks function body live).2 block).mpr ⟨home, found, owner⟩
        have inside := ((owned.instructions block home found).2 value).mpr ⟨type, code, held⟩
        exact .inr (.inr ⟨block, listed, home, found, inside⟩)
    | _ => exact names.elim

end Owned

/-! ### What is left -/

/-- What is left of contents, the former ones without the function. -/
structure Deletion (function : FunctionId) (body : Body) (before after : Contents) : Prop where
  values : ∀ index held, after.values.get? index = some held ↔
    before.values.get? index = some held ∧ ¬ before.Comprises function body ⟨before.id, index⟩
  blocks : ∀ index home, after.blocks.get? index = some home ↔
    before.blocks.get? index = some home ∧ ⟨before.id, index⟩ ∉ body.blocks
  order : after.functions = before.functions.filter fun other => other ≠ function
  bodies : ∀ index, after.bodies.get? index =
    if index = function.index then none
    else (before.bodies.get? index).map fun other =>
      { other with
        personality := if other.personality = some function then none else other.personality
        state := .unverified }
  /-- The names lose the one of the function, if it has one. -/
  names : ∃ held, before.values.get? function.index = some held ∧
    before.names.get? held.name = (if held.name = "" then none else some function) ∧
    ∀ name, after.names.get? name = if name = held.name then none else before.names.get? name
  /-- All that the other functions comprise is still there, with their blocks. -/
  others : ∀ other otherBody, before.HasBody other otherBody → other ≠ function →
    (∀ value, before.Comprises other otherBody value →
        after.values.get? value.index = before.values.get? value.index) ∧
      ∀ block ∈ otherBody.blocks, after.blocks.get? block.index = before.blocks.get? block.index
  constants : ∀ index held, before.values.get? index = some held → held.kind.isConstant = true →
    held.kind ≠ .function → after.values.get? index = some held
  types : after.types = before.types
  interned : after.interned = before.interned
  moduleName : after.moduleName = before.moduleName
  id : after.id = before.id
  native : after.native = before.native
  /-- No position is given out again. -/
  valuesSize : after.values.size = before.values.size
  blocksSize : after.blocks.size = before.blocks.size

/-! ### Stores from which a function is taken -/

/-- Among items that their positions determine, a position is that of its item. -/
theorem mem_map_index {α : Type} {index : α → Nat} {make : Nat → α} {items : List α}
    (positions : ∀ position, index (make position) = position)
    (determined : ∀ item ∈ items, make (index item) = item) {position : Nat} :
    position ∈ items.map index ↔ make position ∈ items := by
  rw [List.mem_map]
  constructor
  · rintro ⟨item, listed, rfl⟩
    rwa [determined item listed]
  · exact fun listed => ⟨_, listed, positions position⟩

theorem mem_instructionsIn {blocks : List BlockId} {index : Nat} :
    index ∈ contents.instructionsIn blocks ↔ ∃ block ∈ blocks,
      ∃ home, contents.blocks.get? block.index = some home ∧
        index ∈ home.instructions.map (·.index) := by
  unfold instructionsIn
  rw [List.mem_flatMap]
  refine exists_congr fun block => and_congr_right fun _ => ?_
  cases contents.blocks.get? block.index <;> simp

theorem names_withoutFunction {held : Value} (anonymous : contents.names.get? "" = none)
    (named : held.name ≠ "" → contents.names.get? held.name = some function) (name : String) :
    (contents.withoutFunction function held.name body).names.get? name =
      if name = held.name then none else contents.names.get? name := by
  rw [withoutFunction]
  by_cases nameless : held.name = ""
  · have unnamed : contents.names.get? held.name ≠ some function := by
      rw [nameless, anonymous]
      rintro ⟨⟩
    rw [if_neg unnamed]
    by_cases same : name = held.name
    · rw [if_pos same, same, nameless, anonymous]
    · rw [if_neg same]
  · rw [if_pos (named nameless)]
    rfl

namespace Owned

variable (owned : contents.Owned) (live : contents.HasBody function body)

include owned live

theorem parameter_home (value : ValueId) (listed : value ∈ body.parameters) :
    ValueId.mk contents.id value.index = value := by
  obtain ⟨_, _, home, _⟩ := owned.holds_parameter live listed
  rw [← home]

theorem block_home (block : BlockId) (listed : block ∈ body.blocks) :
    BlockId.mk contents.id block.index = block := by
  obtain ⟨_, ⟨home, _⟩, _⟩ := ((owned.blocks function body live).2 block).mp listed
  rw [← home]

omit live in
theorem instruction_home {block : BlockId} {home : Block} (found : contents.HasBlock block home)
    (value : ValueId) (listed : value ∈ home.instructions) :
    ValueId.mk contents.id value.index = value := by
  obtain ⟨_, _, home, _⟩ := ((owned.instructions block home found).2 value).mp listed
  rw [← home]

theorem mem_released {index : Nat} :
    index ∈ contents.instructionsIn body.blocks ++ body.parameters.map (·.index) ++
        [function.index] ↔
      contents.Comprises function body ⟨contents.id, index⟩ := by
  have self : index = function.index ↔ (⟨contents.id, index⟩ : ValueId) = function.toValue := by
    rw [FunctionId.toValue, live.1]
    simp
  have instructions : index ∈ contents.instructionsIn body.blocks ↔ ∃ block ∈ body.blocks,
      ∃ home, contents.HasBlock block home ∧ ⟨contents.id, index⟩ ∈ home.instructions := by
    rw [mem_instructionsIn]
    refine exists_congr fun block => and_congr_right fun listed => exists_congr fun home => ?_
    have tag : block.context = contents.id := (congrArg BlockId.context
      (owned.block_home live block listed)).symm
    have inside : contents.HasBlock block home → (index ∈ home.instructions.map (·.index) ↔
        ⟨contents.id, index⟩ ∈ home.instructions) :=
      fun found => mem_map_index (fun _ => rfl) (owned.instruction_home found)
    constructor
    · rintro ⟨found, listed⟩
      exact ⟨⟨tag, found⟩, (inside ⟨tag, found⟩).mp listed⟩
    · rintro ⟨found, listed⟩
      exact ⟨found.2, (inside found).mpr listed⟩
  rw [List.mem_append, List.mem_append, List.mem_singleton, instructions,
    mem_map_index (fun _ => rfl) (owned.parameter_home live), self, or_comm, or_comm (b := _ ∈ _)]
  rfl

/-- What a release of the values that a function comprises leaves of them. -/
theorem values_withoutFunction (name : String) {index : Nat} {held : Value} :
    (contents.withoutFunction function name body).values.get? index = some held ↔
      contents.values.get? index = some held ∧
        ¬ contents.Comprises function body ⟨contents.id, index⟩ := by
  rw [withoutFunction, Table.get?_releaseAll, ← owned.mem_released live]
  by_cases released : index ∈ contents.instructionsIn body.blocks ++
      body.parameters.map (·.index) ++ [function.index]
  · rw [if_pos released]
    exact iff_of_false (fun gone => by cases gone) fun kept => kept.2 released
  · rw [if_neg released]
    exact (and_iff_left released).symm

theorem blocks_withoutFunction (name : String) {index : Nat} {home : Block} :
    (contents.withoutFunction function name body).blocks.get? index = some home ↔
      contents.blocks.get? index = some home ∧ ⟨contents.id, index⟩ ∉ body.blocks := by
  rw [withoutFunction, Table.get?_releaseAll,
    ← mem_map_index (fun _ => rfl) (owned.block_home live)]
  by_cases released : index ∈ body.blocks.map (·.index)
  · rw [if_pos released]
    exact iff_of_false (fun gone => by cases gone) fun kept => kept.2 released
  · rw [if_neg released]
    exact (and_iff_left released).symm

/-- Two functions have nothing in common. -/
theorem apart_comprised (otherLive : contents.HasBody other otherBody) (apart : other ≠ function)
    (comprised : contents.Comprises other otherBody value) :
    ¬ contents.Comprises function body value := by
  intro both
  obtain ⟨type, kind, held, owner⟩ := owned.comprised otherLive comprised
  exact apart (owner.unique ((owned.comprises_iff live held).mp both))

theorem deletion {held : Value} (found : contents.values.get? function.index = some held)
    (names : ∀ name function, contents.names.get? name = some function ↔
      name ≠ "" ∧ contents.HasFunction name function) :
    Deletion function body contents (contents.withoutFunction function held.name body) where
  values _ _ := owned.values_withoutFunction live _
  blocks _ _ := owned.blocks_withoutFunction live _
  order := rfl
  bodies index := by
    rw [withoutFunction, Map.get?_mapValues, Map.get?_erase]
    split <;> rfl
  names := by
    have anonymous : contents.names.get? "" = none :=
      Option.eq_none_iff_forall_ne_some.mpr fun other stored => ((names _ _).mp stored).1 rfl
    have named : held.name ≠ "" → contents.names.get? held.name = some function :=
      fun proper => (names _ _).mpr ⟨proper, ⟨body, live⟩, held, found, rfl⟩
    refine ⟨held, found, ?_, names_withoutFunction anonymous named⟩
    by_cases nameless : held.name = ""
    · rw [if_pos nameless, nameless, anonymous]
    · rw [if_neg nameless, named nameless]
  others other otherBody otherLive apart := by
    constructor
    · intro value comprised
      obtain ⟨_, _, ⟨home, _, stored⟩, _⟩ := owned.comprised otherLive comprised
      rw [stored, owned.values_withoutFunction live]
      refine ⟨stored, ?_⟩
      rw [← home]
      exact owned.apart_comprised live otherLive apart comprised
    · intro block listed
      obtain ⟨home, stored, owner⟩ := ((owned.blocks other otherBody otherLive).2 block).mp listed
      rw [stored.2, owned.blocks_withoutFunction live, ← stored.1]
      refine ⟨stored.2, fun both => apart ?_⟩
      obtain ⟨_, again, same⟩ := ((owned.blocks function body live).2 block).mp both
      rw [← owner, ← same, stored.unique again]
  constants index held stored constant data := by
    refine (owned.values_withoutFunction live _).mpr ⟨stored, fun comprised => ?_⟩
    have entry : contents.Holds ⟨contents.id, index⟩ held.type held.kind := ⟨rfl, held.name, stored⟩
    have owner := (owned.comprises_iff live entry).mp comprised
    cases kind : held.kind with
    | function => exact data kind
    | parameter owner position =>
        rw [kind] at constant
        cases constant
    | instruction block code =>
        rw [kind] at constant
        cases constant
    | _ =>
        rw [kind] at owner
        exact owner.elim
  types := rfl
  interned := rfl
  moduleName := rfl
  id := rfl
  native := rfl
  valuesSize := Table.size_releaseAll _ _
  blocksSize := Table.size_releaseAll _ _

end Owned

end Contents

/-! ### In an arena -/

section Run

variable {arena : Arena} {contents : Contents} {function : FunctionId} {body : Body}

theorem body_eq_ok : arena.body function = .ok body ↔ ∃ contents,
    arena.contents? function.context = some contents ∧
      contents.bodies.get? function.index = some body := by
  unfold Arena.body
  rw [bind_eq_ok]
  refine exists_congr fun contents => and_congr contents_eq_ok ?_
  cases contents.bodies.get? function.index with
  | none => exact iff_of_false (fun gone => by cases gone) fun gone => by cases gone
  | some found => exact ⟨fun same => congrArg some (Except.ok.inj same),
      fun same => congrArg Except.ok (Option.some.inj same)⟩

theorem deleteFunction_run (live : arena.contents? function.context = some contents)
    (owned : contents.Owned) (found : contents.HasBody function body) {held : Value}
    (known : contents.values.get? function.index = some held) :
    deleteFunction function arena = (.ok (), arena.put function.context.index
      (contents.withoutFunction function held.name body)) := by
  have live := contents_eq_ok.mpr live
  have named : arena.functionName function = .ok held.name := by
    have self : arena.body function = .ok body :=
      body_eq_ok.mpr ⟨contents, contents_eq_ok.mp live, found.2⟩
    have entry : arena.value function.toValue = .ok held := by
      unfold Arena.value FunctionId.toValue
      rw [live, ok_bind, known]
      rfl
    unfold Arena.functionName
    rw [self, ok_bind, entry]
    rfl
  have listed := owned.blocks function body found
  have distinct : (body.blocks.map (·.index)).Nodup := by
    refine listed.1.map_on fun first firstListed second secondListed same => ?_
    rw [← owned.block_home found first firstListed, ← owned.block_home found second secondListed,
      same]
  have blocks : ∀ block ∈ body.blocks,
      ∃ home, contents.blocks.get? block.index = some home := by
    intro block inside
    obtain ⟨home, stored, _⟩ := (listed.2 block).mp inside
    exact ⟨home, stored.2⟩
  have read : InPlace.read (fun arena => arena.functionName function) arena =
      (.ok held.name, arena) := congrArg (·, _) named
  refine (InPlace.bind_of_ok read).trans ?_
  unfold within
  rw [live]
  dsimp only
  rw [Contents.deleteFunction_eq found.2 distinct blocks]

end Run

end Arena

/-! ### Reachable systems -/

namespace System

variable {σ : Type} {engine : Arena.Engine σ} {initial : σ} {system : System σ}

/-- A live function can be deleted. What is left of its context is all that tells of something
else, and nothing outside of the context changes. -/
theorem deletion_exact (reachable : Reachable engine initial system) {function : FunctionId}
    {body : Arena.Body} (live : system.arena.body function = .ok body) :
    ∃ contents changed, system.arena.contents? function.context = some contents ∧
      (Command.edit (.deleteFunction function)).inPlace engine system =
        (.ok .done, { system with arena := system.arena.put function.context.index changed }) ∧
      (∀ id, (system.arena.put function.context.index changed).contents? id =
        if id = function.context then some changed else system.arena.contents? id) ∧
      contents.Deletion function body changed := by
  obtain ⟨contents, found, stored⟩ := Arena.body_eq_ok.mp live
  obtain ⟨workspace, context, _, rfl, every, lookup, rfl⟩ := reachable.live_workspace found
  obtain ⟨home, consistent⟩ := every _ _ lookup
  have owned := consistent.coherent.owned.contents_owned
  have self : context.contents.HasBody function body := ⟨home.symm, stored⟩
  obtain ⟨_, name, known⟩ := owned.signed function body self
  have run := Arena.deleteFunction_run found owned self known
  refine ⟨context.contents, _, found, ?_, Arena.contents?_put found _,
    owned.deletion self known fun _ _ => Context.contents_named consistent.distinct⟩
  have edited : (Edit.deleteFunction function).inPlace workspace.system.arena =
      (.ok .done, workspace.system.arena.put function.context.index
        (context.contents.withoutFunction function name body)) := InPlace.bind_of_ok run
  have step : (Command.edit (.deleteFunction function)).inPlace engine workspace.system =
      (((Edit.deleteFunction function).inPlace workspace.system.arena).1, { workspace.system with
        arena := ((Edit.deleteFunction function).inPlace workspace.system.arena).2 }) := rfl
  rw [step, edited]

/-- A function with an instruction that names itself and is named by another one, both verified. -/
def entangledRun : List Command :=
  let context : ContextId := ⟨0, 0⟩
  [.createContext "entangled",
    .edit (.integerType context 32),
    .edit (.signatureType ⟨context, 0⟩ [⟨context, 0⟩] false),
    .edit (.declare context "f" ⟨context, 1⟩),
    .edit (.declare context "g" ⟨context, 1⟩),
    .edit (.integerConstant ⟨context, 0⟩ 7),
    .edit (.setPersonality ⟨context, 0⟩ ⟨context, 0⟩),
    .edit (.setPersonality ⟨context, 2⟩ ⟨context, 0⟩),
    .edit (.appendBlock ⟨context, 0⟩ "entry"),
    .edit (.ret ⟨context, 0⟩ (some ⟨context, 4⟩)),
    .verifyModule context]

/-- Whether the constant and the return are live, the holder of the name, and what the other
function keeps of the one that is deleted. -/
def entangledView (contents : Arena.Contents) :
    List Bool × Option FunctionId × Option (Option FunctionId × VerificationState) :=
  ([4, 5].map fun value => (contents.values.get? value).isSome, contents.names.get? "f",
    (contents.bodies.get? 2).map fun other => (other.personality, other.state))

/-- The return goes with its function, the constant stays, the name is free, and the other function
has no personality any longer. -/
theorem entangledRun_deleted :
    let system := afterAll .reference (start .standard .start) entangledRun
    ∃ (body : Arena.Body) (contents changed : Arena.Contents),
      system.arena.body ⟨⟨0, 0⟩, 0⟩ = .ok body ∧
      (after .reference system (.edit (.deleteFunction ⟨⟨0, 0⟩, 0⟩))).arena =
        system.arena.put 0 changed ∧
      contents.Deletion ⟨⟨0, 0⟩, 0⟩ body changed ∧
      entangledView contents =
        ([true, true], some ⟨⟨0, 0⟩, 0⟩, some (some ⟨⟨0, 0⟩, 0⟩, .verified)) ∧
      entangledView changed = ([true, false], none, some (none, .unverified)) := by
  intro system
  have listed : (system.arena.body ⟨⟨0, 0⟩, 0⟩).toOption.map (fun body => body.blocks) =
      some [⟨⟨0, 0⟩, 0⟩] := by
    decide +kernel
  cases live : system.arena.body ⟨⟨0, 0⟩, 0⟩ with
  | error fault =>
      rw [live] at listed
      cases listed
  | ok body =>
      obtain ⟨contents, changed, found, run, later, deletion⟩ :=
        deletion_exact ⟨.standard, entangledRun, rfl⟩ live
      have arena : (after .reference system (.edit (.deleteFunction ⟨⟨0, 0⟩, 0⟩))).arena =
          system.arena.put 0 changed := congrArg (fun outcome => outcome.2.arena) run
      have before : (system.arena.contents? ⟨0, 0⟩).map entangledView =
          some ([true, true], some ⟨⟨0, 0⟩, 0⟩, some (some ⟨⟨0, 0⟩, 0⟩, .verified)) := by
        decide +kernel
      have after : ((after .reference system (.edit (.deleteFunction
          ⟨⟨0, 0⟩, 0⟩))).arena.contents? ⟨0, 0⟩).map entangledView =
            some ([true, false], none, some (none, .unverified)) := by
        decide +kernel
      rw [found, Option.map_some] at before
      rw [arena, later, if_pos rfl, Option.map_some] at after
      exact ⟨body, contents, changed, rfl, arena, deletion, Option.some.inj before,
        Option.some.inj after⟩

end System

end TypedIR
