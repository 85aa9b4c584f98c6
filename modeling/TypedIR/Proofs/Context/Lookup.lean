import Mathlib.Data.List.Forall2
import Mathlib.Data.List.Nodup
import TypedIR.Context.Types
import TypedIR.Table

/-!
Contract: computations that can be refused, and look-up in a context.

Owns:
- what success of a sequence of such computations says of each, and what it takes;
- pairs in a list, looked up by what they begin with;
- when a handle resolves: it carries the context's own identity, and the table
  holds an entry at its position;
- the handles that are live in a context;
- functions by position, before and after one of them is updated.
-/

namespace TypedIR

/-! ### Success of computations -/

section Success

variable {α β : Type}

theorem ok_bind (value : α) (next : α → Except Fault β) : (Except.ok value >>= next) = next value :=
  rfl

theorem bind_eq_ok {Failure : Type} {action : Except Failure α} {next : α → Except Failure β}
    {result : β} :
    (action >>= next) = .ok result ↔ ∃ value, action = .ok value ∧ next value = .ok result := by
  cases action with
  | error fault =>
      refine iff_of_false (fun equal => ?_) (fun ⟨_, equal, _⟩ => ?_)
      · cases equal
      · cases equal
  | ok value =>
      constructor
      · exact fun equal => ⟨value, rfl, equal⟩
      · rintro ⟨other, equal, done⟩
        cases equal
        exact done

theorem pure_eq_ok {value result : α} :
    (pure value : Except Fault α) = .ok result ↔ value = result :=
  Except.ok.injEq value result ▸ Iff.rfl

theorem throw_eq_ok {fault : Fault} {result : α} :
    (throw fault : Except Fault α) = .ok result ↔ False :=
  iff_of_false (fun equal => by cases equal) id

theorem ite_throw_eq_ok {condition : Prop} [Decidable condition] {fault : Fault}
    {action : Except Fault α} {result : α} :
    (if condition then action else throw fault) = .ok result ↔
      condition ∧ action = .ok result := by
  by_cases holds : condition
  · simp [holds]
  · simp [holds, throw_eq_ok]

theorem ite_throw_bind_eq_ok {condition : Prop} [Decidable condition] {fault : Fault}
    {refused : β → Except Fault α} {action : Except Fault α} {result : α} :
    (if condition then (throw fault >>= refused) else action) = .ok result ↔
      ¬ condition ∧ action = .ok result := by
  by_cases holds : condition
  · simp [holds, bind_eq_ok, throw_eq_ok]
  · simp [holds]

theorem forM_eq_ok {check : α → Except Fault Unit} {items : List α} {result : Unit} :
    items.forM check = .ok result ↔ ∀ item ∈ items, check item = .ok () := by
  induction items with
  | nil => simp [List.forM, pure_eq_ok]
  | cons item rest inductionHypothesis =>
      have unfolded : (item :: rest).forM check = (check item >>= fun _ => rest.forM check) := rfl
      rw [unfolded, bind_eq_ok]
      constructor
      · rintro ⟨⟨⟩, first, others⟩ other member
        rcases List.mem_cons.mp member with rfl | later
        · exact first
        · exact inductionHypothesis.mp others other later
      · intro all
        exact ⟨(), all item List.mem_cons_self,
          inductionHypothesis.mpr fun other later => all other (List.mem_cons_of_mem _ later)⟩

theorem mapM_eq_ok {action : α → Except Fault β} {items : List α} {results : List β} :
    items.mapM action = .ok results ↔
      List.Forall₂ (fun item result => action item = .ok result) items results := by
  induction items generalizing results with
  | nil =>
      rw [List.mapM_nil, pure_eq_ok, List.forall₂_nil_left_iff]
      exact eq_comm
  | cons item rest inductionHypothesis =>
      rw [List.mapM_cons, bind_eq_ok, List.forall₂_cons_left_iff]
      simp only [bind_eq_ok, pure_eq_ok]
      constructor
      · rintro ⟨first, done, others, rests, rfl⟩
        exact ⟨first, others, done, inductionHypothesis.mp rests, rfl⟩
      · rintro ⟨first, others, done, rests, rfl⟩
        exact ⟨first, done, others, inductionHypothesis.mpr rests, rfl⟩

end Success

/-- The computation is not refused. -/
def Succeeds {α : Type} (action : Except Fault α) : Prop := ∃ result, action = .ok result

section Succeeds

variable {α β : Type}

theorem succeeds_pure (value : α) : Succeeds (pure value : Except Fault α) := ⟨value, rfl⟩

theorem Succeeds.bind {action : Except Fault α} {next : α → Except Fault β}
    (first : Succeeds action) (rest : ∀ value, action = .ok value → Succeeds (next value)) :
    Succeeds (action >>= next) := by
  obtain ⟨value, done⟩ := first
  obtain ⟨result, finished⟩ := rest value done
  exact ⟨result, bind_eq_ok.mpr ⟨value, done, finished⟩⟩

theorem succeeds_mapM {action : α → Except Fault β} {items : List α}
    (each : ∀ item ∈ items, Succeeds (action item)) : Succeeds (items.mapM action) := by
  induction items with
  | nil => exact ⟨[], rfl⟩
  | cons item rest inductionHypothesis =>
      rw [List.mapM_cons]
      apply (each item List.mem_cons_self).bind
      intro first _
      have others := fun other listed => each other (List.mem_cons_of_mem _ listed)
      apply (inductionHypothesis others).bind
      intro others _
      exact succeeds_pure _

end Succeeds

/-! ### Lists of pairs -/

section Pairs

variable {α β : Type} [DecidableEq α] {pairs : List (α × β)} {key : α} {value : β}

theorem mem_of_lookup (found : pairs.lookup key = some value) : (key, value) ∈ pairs := by
  obtain ⟨before, rest, split, _⟩ := List.lookup_eq_some_iff.mp found
  rw [split]
  exact List.mem_append_right _ List.mem_cons_self

theorem isSome_lookup : (pairs.lookup key).isSome ↔ key ∈ pairs.map (·.1) := by
  rw [List.lookup_isSome_iff, List.mem_map]
  exact exists_congr fun pair => and_congr_right fun _ => beq_iff_eq.trans eq_comm

end Pairs

namespace Context

variable {context : Context}

/-! ### Resolution -/

theorem resolveType_eq_ok {type : TypeId} {shape : TypeShape} :
    context.resolveType type = .ok shape ↔
      type.context = context.id ∧ context.shape? type.index = some shape := by
  unfold resolveType
  by_cases home : type.context = context.id
  · rw [if_neg (not_not_intro home)]
    cases context.shape? type.index <;> simp [home]
  · simp [home]

theorem resolveValue_eq_ok {value : ValueId} {entry : Value} :
    context.resolveValue value = .ok entry ↔
      value.context = context.id ∧ context.value? value.index = some entry := by
  unfold resolveValue
  by_cases home : value.context = context.id
  · rw [if_neg (not_not_intro home)]
    cases context.value? value.index <;> simp [home]
  · simp [home]

theorem resolveFunction_eq_ok {function : FunctionId} {entry : FunctionEntry} :
    context.resolveFunction function = .ok entry ↔
      function.context = context.id ∧ context.function? function.index = some entry := by
  unfold resolveFunction
  by_cases home : function.context = context.id
  · rw [if_neg (not_not_intro home)]
    cases context.function? function.index <;> simp [home]
  · simp [home]

theorem resolveBlock_eq_ok {block : BlockId} {entry : Block} :
    context.resolveBlock block = .ok entry ↔
      block.context = context.id ∧ context.block? block.index = some entry := by
  unfold resolveBlock
  by_cases home : block.context = context.id
  · rw [if_neg (not_not_intro home)]
    cases context.block? block.index <;> simp [home]
  · simp [home]

/-- The context gave the handle out, and still has the entry. -/
def Live (context : Context) : Handle → Prop
  | .context id => id = context.id
  | .type type => type.context = context.id ∧ ∃ shape, context.shape? type.index = some shape
  | .value value => value.context = context.id ∧ ∃ entry, context.value? value.index = some entry
  | .function function =>
      function.context = context.id ∧ ∃ entry, context.function? function.index = some entry
  | .block block => block.context = context.id ∧ ∃ entry, context.block? block.index = some entry

theorem Live.tag_eq {handle : Handle} (live : context.Live handle) : handle.tag = context.id := by
  cases handle with
  | context id => exact live
  | _ => exact live.1

theorem live_of_resolveType {type : TypeId} {shape : TypeShape}
    (resolved : context.resolveType type = .ok shape) : context.Live (.type type) := by
  obtain ⟨home, known⟩ := resolveType_eq_ok.mp resolved
  exact ⟨home, shape, known⟩

theorem live_of_resolveValue {value : ValueId} {entry : Value}
    (resolved : context.resolveValue value = .ok entry) : context.Live (.value value) := by
  obtain ⟨home, found⟩ := resolveValue_eq_ok.mp resolved
  exact ⟨home, entry, found⟩

theorem live_of_resolveFunction {function : FunctionId} {entry : FunctionEntry}
    (resolved : context.resolveFunction function = .ok entry) :
    context.Live (.function function) := by
  obtain ⟨home, found⟩ := resolveFunction_eq_ok.mp resolved
  exact ⟨home, entry, found⟩

theorem live_of_resolveBlock {block : BlockId} {entry : Block}
    (resolved : context.resolveBlock block = .ok entry) : context.Live (.block block) := by
  obtain ⟨home, found⟩ := resolveBlock_eq_ok.mp resolved
  exact ⟨home, entry, found⟩

/-! ### Functions -/

/-- The position is that of a live function. -/
def IsFunction (context : Context) (function : ValueRef) : Prop :=
  ∃ entry ∈ context.functions, entry.self = function

theorem mem_of_function? {function : ValueRef} {entry : FunctionEntry}
    (found : context.function? function = some entry) :
    entry ∈ context.functions ∧ entry.self = function :=
  ⟨List.mem_of_find?_eq_some found, by simpa using List.find?_some found⟩

theorem isSome_function? {function : ValueRef} :
    (context.function? function).isSome ↔ context.IsFunction function := by
  simp [function?, IsFunction]

/-- If no two functions share a position, look-up finds every function. -/
theorem function?_of_mem {entry : FunctionEntry}
    (distinct : (context.functions.map fun entry => entry.self).Nodup)
    (member : entry ∈ context.functions) : context.function? entry.self = some entry := by
  have found : (context.function? entry.self).isSome := isSome_function?.mpr ⟨entry, member, rfl⟩
  obtain ⟨other, lookup⟩ := Option.isSome_iff_exists.mp found
  obtain ⟨otherMember, same⟩ := mem_of_function? lookup
  rw [lookup, List.inj_on_of_nodup_map distinct otherMember member same]

theorem mem_updateFunction {function : ValueRef} {change : FunctionEntry → FunctionEntry}
    {entry : FunctionEntry} :
    entry ∈ (context.updateFunction function change).functions ↔
      ∃ before ∈ context.functions,
        (if before.self = function then change before else before) = entry := by
  simp [updateFunction]

theorem function?_updateFunction {function other : ValueRef}
    {change : FunctionEntry → FunctionEntry} (self : ∀ entry, (change entry).self = entry.self) :
    (context.updateFunction function change).function? other =
      if other = function then (context.function? other).map change
      else context.function? other := by
  have unfolded : (context.updateFunction function change).function? other =
      (context.functions.map fun entry =>
        if entry.self = function then change entry else entry).find? fun entry =>
          entry.self = other := rfl
  have looked : ((fun entry : FunctionEntry => decide (entry.self = other)) ∘
      fun entry => if entry.self = function then change entry else entry) =
        fun entry => decide (entry.self = other) := by
    funext entry
    show decide ((if entry.self = function then change entry else entry).self = other) = _
    congr 2
    split
    · exact self entry
    · rfl
  rw [unfolded, List.find?_map, looked, ← Context.function?]
  cases found : context.function? other with
  | none => simp
  | some entry =>
      have same := (mem_of_function? found).2
      by_cases here : other = function
      · simp [here, same]
      · simp [here, same]

end Context

end TypedIR
