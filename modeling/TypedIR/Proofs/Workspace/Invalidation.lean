import TypedIR.Proofs.Context.Conditions
import TypedIR.Proofs.Ownership.Deletion
import TypedIR.Proofs.Workspace.Edits

/-!
Contract: what an edit makes of the functions of its home.

Owns:
- the functions that an edit invalidates, by its arguments and the home before it;
- where the functions behind a successful edit come from: these are marked as unverified, a new
  one has the convention of the settings, and every other one is as it was in both respects.

Does not own: verification, and refused edits, which change nothing.
-/

namespace TypedIR

namespace Context

variable {settings : Settings} {context before after : Context} {codes : UInt32 → Prop}
  {subject : ValueRef → Prop}

/-- Where a function behind an edit comes from. The edit is about the functions of the subject, and
gives some of the codes to functions. -/
inductive Origin (codes : UInt32 → Prop) (subject : ValueRef → Prop) (before : Context)
    (entry : FunctionEntry) : Prop where
  | kept {old : FunctionEntry} (listed : old ∈ before.functions) (self : old.self = entry.self)
      (other : ¬ subject entry.self) (convention : old.convention = entry.convention)
      (state : old.state = entry.state)
  | marked {old : FunctionEntry} (listed : old ∈ before.functions) (about : subject entry.self)
      (convention : old.convention = entry.convention ∨ codes entry.convention)
      (state : entry.state = .unverified)
  | declared (fresh : before.values.size ≤ entry.self) (convention : codes entry.convention)
      (state : entry.state = .unverified)

/-- The functions of the subject are unverified afterwards, and so are new ones. Every other one has
the record and the convention that it had. -/
def Resets (codes : UInt32 → Prop) (subject : ValueRef → Prop) (before after : Context) : Prop :=
  ∀ entry ∈ after.functions, Origin codes subject before entry

theorem Resets.cleared (resets : Resets codes subject before after) :
    ∀ entry ∈ after.functions, subject entry.self → entry.state = .unverified := by
  intro entry member about
  cases resets entry member with
  | kept _ _ other => exact absurd about other
  | marked _ _ _ state | declared _ _ state => exact state

theorem Resets.old (resets : Resets codes subject before after) :
    ∀ entry ∈ after.functions, ¬ subject entry.self →
      (∃ old ∈ before.functions, old.self = entry.self ∧ old.state = entry.state) ∨
        before.values.size ≤ entry.self ∧ entry.state = .unverified := by
  intro entry member other
  cases resets entry member with
  | kept listed self _ _ state => exact .inl ⟨_, listed, self, state⟩
  | marked _ about => exact absurd about other
  | declared fresh _ state => exact .inr ⟨fresh, state⟩

/-- The convention of every function is permitted. -/
def Convened (permitted : UInt32 → Prop) (context : Context) : Prop :=
  ∀ entry ∈ context.functions, permitted entry.convention

theorem Resets.convened {permitted : UInt32 → Prop} (resets : Resets codes subject before after)
    (held : before.Convened permitted) (allowed : ∀ code, codes code → permitted code) :
    after.Convened permitted := by
  intro entry member
  cases resets entry member with
  | kept listed _ _ convention => exact convention ▸ held _ listed
  | marked listed _ convention =>
      rcases convention with same | given
      · exact same ▸ held _ listed
      · exact allowed _ given
  | declared _ given => exact allowed _ given

theorem resets_of_functions_eq (same : after.functions = before.functions) :
    Resets codes (fun _ => False) before after :=
  fun _ member => .kept (same ▸ member) rfl not_false rfl rfl

theorem Resets.of_functions_eq {other : Context} (resets : Resets codes subject before after)
    (same : other.functions = after.functions) : Resets codes subject before other :=
  fun entry member => resets entry (same ▸ member)

/-- An edit of one function marks that one. -/
theorem resets_updateFunction {function : ValueRef} {change : FunctionEntry → FunctionEntry}
    (self : ∀ entry : FunctionEntry, (change entry).self = entry.self)
    (convention : ∀ entry : FunctionEntry,
      entry.convention = (change entry).convention ∨ codes (change entry).convention)
    (marks : ∀ entry : FunctionEntry, (change entry).state = .unverified) :
    Resets codes (fun other => function = other) context
      (context.updateFunction function change) := by
  intro entry member
  obtain ⟨old, listed, rfl⟩ := mem_updateFunction.mp member
  by_cases here : old.self = function
  · rw [if_pos here]
    exact .marked listed (here.symm.trans (self old).symm) (convention old) (marks old)
  · rw [if_neg here]
    exact .kept listed rfl (Ne.symm here) rfl rfl

/-- An edit of one function's other parts marks that one. -/
theorem resets_edited {function : ValueRef} {change : FunctionEntry → FunctionEntry}
    (self : ∀ entry : FunctionEntry, (change entry).self = entry.self)
    (convention : ∀ entry : FunctionEntry, (change entry).convention = entry.convention) :
    Resets codes (fun other => function = other) context
      (context.updateFunction function fun entry => (change entry).edited) :=
  resets_updateFunction self (fun entry => .inl (convention entry).symm) fun _ => rfl

theorem resets_withBlock {function : ValueRef} {name : String} :
    Resets codes (fun other => function = other) context (context.withBlock function name) := by
  have marked : Resets codes (fun other => function = other) context
      (context.updateFunction function fun entry =>
        { entry with blocks := entry.blocks ++ [context.blocks.size] }.edited) :=
    resets_edited (fun _ => rfl) fun _ => rfl
  exact marked.of_functions_eq rfl

theorem resets_withFunction {convention : UInt32} {name : String} {signature : TypeRef}
    {parameters : List TypeRef} (given : codes convention) :
    Resets codes (fun _ => False) context
      (context.withFunction convention name signature parameters) := by
  intro entry member
  cases mem_withFunction.mp member with
  | inl old => exact .kept old rfl not_false rfl rfl
  | inr declared =>
      subst declared
      exact .declared (Nat.le_refl _) given rfl

/-- A deletion marks all functions that are left. -/
theorem resets_withoutFunction {deleted : FunctionEntry} :
    Resets codes (fun other => deleted.self ≠ other) context
      (context.withoutFunction deleted) := by
  intro entry member
  obtain ⟨old, listed, other, rfl⟩ := mem_withoutFunction.mp member
  exact .marked listed (Ne.symm other) (.inl rfl) rfl

/-- The setter gives the code only if it is accepted. -/
theorem resets_setConvention {accepts : UInt32 → Bool} {name : String} {target : FunctionId}
    {code : UInt32} {home changed : Context} {value : Unit}
    (done : ((Operation.setConvention accepts name target code).effect home).1 =
      .ok (value, changed)) :
    Resets (fun given => accepts given = true) (fun index => target.index = index) home
      changed := by
  obtain ⟨_, accepted, equal⟩ := setConvention_eq_ok.mp done
  obtain ⟨_, rfl⟩ := Prod.mk.inj equal
  exact resets_updateFunction (fun _ => rfl) (fun _ => .inr accepted) fun _ => rfl

/-! ### The functions of a context, through other tables -/

theorem functions_intern {shape : TypeShape} {type : TypeId}
    (interned : context.intern shape = (type, after)) : after.functions = context.functions := by
  unfold intern at interned
  cases found : context.findType? shape with
  | some known =>
      rw [found] at interned
      exact congrArg (fun result => result.2.functions) interned.symm
  | none =>
      rw [found] at interned
      exact congrArg (fun result => result.2.functions) interned.symm

theorem functions_arrayType {element type : TypeId} {length : UInt32}
    (done : context.arrayType element length = .ok (type, after)) :
    after.functions = context.functions :=
  functions_intern (arrayType_eq_ok.mp done).2

theorem functions_structType {fields : List TypeId} {packed : Bool} {type : TypeId}
    (done : context.structType fields packed = .ok (type, after)) :
    after.functions = context.functions :=
  functions_intern (structType_eq_ok.mp done).2

theorem functions_arrayConstant {element : TypeId} {values : List ValueId} {value : ValueId}
    (done : context.arrayConstant element values = .ok (value, after)) :
    after.functions = context.functions := by
  unfold arrayConstant at done
  simp only [bind_eq_ok, pure_eq_ok, Prod.exists] at done
  obtain ⟨_, _, _, _, _, _, type, between, built, equal⟩ := done
  have pushed : after.functions = between.functions :=
    congrArg (fun result => result.2.functions) equal.symm
  exact pushed.trans (functions_arrayType built)

theorem functions_structConstant {values : List ValueId} {packed : Bool} {value : ValueId}
    (done : context.structConstant values packed = .ok (value, after)) :
    after.functions = context.functions := by
  unfold structConstant at done
  simp only [bind_eq_ok, pure_eq_ok, Prod.exists] at done
  obtain ⟨_, _, type, between, built, equal⟩ := done
  have pushed : after.functions = between.functions :=
    congrArg (fun result => result.2.functions) equal.symm
  exact pushed.trans (functions_structType built)

theorem functions_bytesConstant {content : List UInt8} {terminated : Bool} {value : ValueId}
    (done : context.bytesConstant settings content terminated = .ok (value, after)) :
    after.functions = context.functions := by
  obtain ⟨_, _, byte, between, type, last, isByte, isArray, equal⟩ := bytesConstant_eq_ok.mp done
  have pushed : after.functions = last.functions :=
    congrArg (fun result => result.2.functions) equal.symm
  exact pushed.trans ((functions_intern isArray).trans (functions_intern isByte))

/-- A new instruction marks the function of its block. -/
theorem resets_of_append {between : Context} {home : Block} {block : BlockId} {type : TypeRef}
    {code : Instruction} {name : String} {value : ValueId}
    (found : context.resolveBlock block = .ok home)
    (functions : between.functions = context.functions)
    (appended : between.appendInstruction home.function block.index type code name =
      (value, after)) :
    Resets codes (fun function => context.parent? block.index = some function) context after := by
  have changed : after.functions =
      (context.updateFunction home.function FunctionEntry.edited).functions := by
    obtain ⟨_, rfl⟩ := Prod.mk.inj appended
    show between.functions.map _ = context.functions.map _
    rw [functions]
  have parent : context.parent? block.index = some home.function := by
    rw [parent?, (resolveBlock_eq_ok.mp found).2, Option.map_some]
  have subject : (fun function => context.parent? block.index = some function) =
      fun function => home.function = function := by
    rw [parent]
    exact funext fun function => Option.some.injEq _ _
  have marked : Resets codes (fun other => home.function = other) context
      (context.updateFunction home.function FunctionEntry.edited) :=
    resets_updateFunction (fun _ => rfl) (fun _ => .inl rfl) fun _ => rfl
  rw [subject]
  exact marked.of_functions_eq changed

theorem resets_of_appendTerminator {home : Block} {block : BlockId} {code : Instruction}
    {value : ValueId} (found : context.resolveBlock block = .ok home)
    (appended : context.appendTerminator home.function block.index code = (value, after)) :
    Resets codes (fun function => context.parent? block.index = some function) context after :=
  resets_of_append found (functions_intern rfl) appended

end Context

/-! ### Every edit -/

/-- The edit, when it succeeds in the context, marks the function as unverified. -/
def Edit.Invalidates (context : Context) (function : ValueRef) : Edit → Prop
  | .appendBlock target _ | .setPersonality target _ | .clearPersonality target
  | .setCollector target _ | .addAttribute target _ _ | .addTargetAttribute target _ _ =>
      target.index = function
  | .removeAttribute target site key =>
      target.index = function ∧ ∃ entry, context.function? function = some entry ∧
        (entry.attributes.get? site key).isSome
  | .setAlignment value _ =>
      ∃ position, context.parameterPlace value = .ok (context.functionId function, position)
  | .binary block _ _ _ _ | .compare block _ _ _ _ | .select block _ _ _ _ | .call block _ _ _
  | .ret block _ | .branch block _ | .condBranch block _ _ _ | .unreachable block =>
      context.parent? block.index = some function
  | .deleteFunction target => target.index ≠ function
  | _ => False

open Context in
theorem Edit.resets {settings : Settings} {edit : Edit} {context after : Context}
    {answer : Answer}
    (done : ((edit.operation settings).effect context).1 = .ok (answer, after)) :
    Resets (fun code => code = settings.convention.code)
      (fun function => edit.Invalidates context function) context after := by
  cases edit with
  | setModuleName target name =>
      obtain ⟨_, applied⟩ := Operation.quiet_done done
      obtain ⟨_, rfl⟩ := Prod.mk.inj (Except.ok.inj applied)
      exact resets_of_functions_eq rfl
  | voidType target =>
      obtain ⟨_, applied⟩ := Operation.quiet_done done
      obtain ⟨_, rfl⟩ := Prod.mk.inj (Except.ok.inj applied)
      exact resets_of_functions_eq (functions_intern rfl)
  | labelType target =>
      obtain ⟨_, applied⟩ := Operation.quiet_done done
      obtain ⟨_, rfl⟩ := Prod.mk.inj (Except.ok.inj applied)
      exact resets_of_functions_eq (functions_intern rfl)
  | integerType target bits =>
      obtain ⟨_, applied⟩ := Operation.quiet_done (Operation.guarded_done done)
      obtain ⟨_, equal⟩ := integerType_eq_ok.mp applied
      exact resets_of_functions_eq (functions_intern equal)
  | arrayType element length =>
      obtain ⟨_, applied⟩ := Operation.quiet_done done
      exact resets_of_functions_eq (functions_arrayType applied)
  | structType target fields packed =>
      obtain ⟨_, applied⟩ := Operation.quiet_done (Operation.guarded_done done)
      exact resets_of_functions_eq (functions_structType applied)
  | signatureType result parameters variadic =>
      obtain ⟨_, applied⟩ := Operation.quiet_done done
      obtain ⟨_, _, _, equal⟩ := signatureType_eq_ok.mp applied
      exact resets_of_functions_eq (functions_intern equal)
  | integerConstant type number =>
      obtain ⟨_, applied⟩ := Operation.reported_done done
      obtain ⟨_, _, _, equal⟩ := integerConstant_eq_ok.mp applied
      obtain ⟨_, rfl⟩ := Prod.mk.inj equal
      exact resets_of_functions_eq rfl
  | arrayConstant element values =>
      obtain ⟨_, applied⟩ := Operation.reported_done (Operation.guarded_done done)
      exact resets_of_functions_eq (functions_arrayConstant applied)
  | bytesConstant target content terminated =>
      obtain ⟨_, applied⟩ := Operation.reported_done (Operation.guarded_done done)
      exact resets_of_functions_eq (functions_bytesConstant applied)
  | structConstant target values packed =>
      obtain ⟨_, applied⟩ := Operation.reported_done (Operation.guarded_done done)
      exact resets_of_functions_eq (functions_structConstant applied)
  | undefined type =>
      obtain ⟨_, applied⟩ := Operation.reported_done done
      obtain ⟨_, _, equal⟩ := bind_eq_ok.mp applied
      obtain ⟨_, rfl⟩ := Prod.mk.inj (pure_eq_ok.mp equal)
      exact resets_of_functions_eq rfl
  | declare target name signature =>
      obtain ⟨_, applied⟩ := Operation.reported_done (Operation.guarded_done done)
      obtain ⟨_, _, _, _, _, _, equal⟩ := declare_eq_ok.mp applied
      obtain ⟨_, rfl⟩ := Prod.mk.inj equal
      exact resets_withFunction rfl
  | rename value name =>
      obtain ⟨_, applied⟩ := Operation.reported_done done
      obtain ⟨_, _, _, _, equal⟩ := rename_eq_ok.mp applied
      obtain ⟨_, rfl⟩ := Prod.mk.inj equal
      exact resets_of_functions_eq rfl
  | appendBlock target name =>
      obtain ⟨_, applied⟩ := Operation.reported_done done
      obtain ⟨_, entry, _, equal⟩ := appendBlock_eq_ok.mp applied
      obtain ⟨_, rfl⟩ := Prod.mk.inj equal
      exact resets_withBlock
  | setPersonality target personality =>
      obtain ⟨_, applied⟩ := Operation.quiet_done (Operation.guarded_done done)
      obtain ⟨_, _, equal⟩ := setPersonality_eq_ok.mp applied
      obtain ⟨_, rfl⟩ := Prod.mk.inj equal
      exact resets_edited (fun _ => rfl) fun _ => rfl
  | clearPersonality target =>
      obtain ⟨_, applied⟩ := Operation.quiet_done done
      obtain ⟨_, equal⟩ := editFunction_eq_ok.mp applied
      obtain ⟨_, rfl⟩ := Prod.mk.inj equal
      exact resets_edited (fun _ => rfl) fun _ => rfl
  | setCollector target strategy =>
      obtain ⟨_, applied⟩ := Operation.quiet_done done
      obtain ⟨_, equal⟩ := editFunction_eq_ok.mp applied
      obtain ⟨_, rfl⟩ := Prod.mk.inj equal
      exact resets_edited (fun _ => rfl) fun _ => rfl
  | deleteFunction target =>
      obtain ⟨_, applied⟩ := Operation.reported_done done
      obtain ⟨_, entry, found, rfl⟩ := deleteFunction_done applied
      have self := (mem_of_function? found).2
      show Resets _ (fun function => target.index ≠ function) _ _
      rw [← self]
      exact resets_withoutFunction
  | addAttribute target site added =>
      obtain ⟨_, applied⟩ := Operation.reported_done done
      obtain ⟨_, _, _, _, equal⟩ := addAttribute_eq_ok.mp applied
      obtain ⟨_, rfl⟩ := Prod.mk.inj equal
      exact resets_edited (fun _ => rfl) fun _ => rfl
  | addTargetAttribute target key content =>
      obtain ⟨_, applied⟩ := Operation.reported_done done
      obtain ⟨_, _, _, _, equal⟩ := addAttribute_eq_ok.mp applied
      obtain ⟨_, rfl⟩ := Prod.mk.inj equal
      exact resets_edited (fun _ => rfl) fun _ => rfl
  | removeAttribute target site key =>
      obtain ⟨_, applied⟩ := Operation.quiet_done done
      obtain ⟨entry, found, removed⟩ := bind_eq_ok.mp applied
      have lookup := (resolveSite_ok found).2
      by_cases present : (entry.attributes.get? site key).isSome
      · rw [if_pos present] at removed
        obtain ⟨_, equal⟩ := editFunction_eq_ok.mp removed
        obtain ⟨_, rfl⟩ := Prod.mk.inj equal
        have subject : (fun function => (Edit.removeAttribute target site key).Invalidates context
            function) = fun function => target.index = function := by
          funext function
          refine propext ⟨And.left, ?_⟩
          rintro rfl
          exact ⟨rfl, entry, lookup, present⟩
        rw [subject]
        exact resets_edited (fun _ => rfl) fun _ => rfl
      · rw [if_neg present] at removed
        obtain ⟨_, rfl⟩ := Prod.mk.inj (pure_eq_ok.mp removed)
        have subject : (fun function => (Edit.removeAttribute target site key).Invalidates context
            function) = fun _ => False := by
          funext function
          refine propext ⟨?_, False.elim⟩
          rintro ⟨rfl, other, otherLookup, otherPresent⟩
          obtain rfl := Option.some.inj (lookup.symm.trans otherLookup)
          exact present otherPresent
        rw [subject]
        exact resets_of_functions_eq rfl
  | setAlignment value align =>
      obtain ⟨_, applied⟩ := Operation.reported_done done
      obtain ⟨owner, position, place, _, added⟩ := setAlignment_eq_ok.mp applied
      obtain ⟨home, _, _, _, equal⟩ := addAttribute_eq_ok.mp added
      obtain ⟨_, rfl⟩ := Prod.mk.inj equal
      have subject : (fun function => (Edit.setAlignment value align).Invalidates context
          function) = fun function => owner.index = function := by
        funext function
        refine propext ⟨?_, ?_⟩
        · rintro ⟨_, other⟩
          have same := Except.ok.inj (place.symm.trans other)
          exact congrArg (fun place => place.1.index) same
        · rintro rfl
          refine ⟨position, place.trans ?_⟩
          rw [functionId, ← home]
      rw [subject]
      exact resets_edited (fun _ => rfl) fun _ => rfl
  | binary block operator left right name =>
      obtain ⟨_, applied⟩ := Operation.reported_done done
      obtain ⟨_, _, found, _, _, _, appended⟩ := binary_eq_ok.mp applied
      exact resets_of_append found rfl appended
  | compare block predicate left right name =>
      obtain ⟨_, applied⟩ := Operation.reported_done done
      obtain ⟨_, _, found, _, _, _, _, appended⟩ := compare_eq_ok.mp applied
      exact resets_of_append found (functions_intern rfl) appended
  | select block condition thenValue elseValue name =>
      obtain ⟨_, applied⟩ := Operation.reported_done done
      obtain ⟨_, _, _, found, _, _, _, _, _, appended⟩ := select_eq_ok.mp applied
      exact resets_of_append found rfl appended
  | call block callee arguments name =>
      obtain ⟨_, applied⟩ := Operation.reported_done done
      obtain ⟨_, _, _, _, _, _, found, _, _, _, _, _, _, appended⟩ := call_eq_ok.mp applied
      exact resets_of_append found rfl appended
  | ret block value =>
      obtain ⟨_, applied⟩ := Operation.reported_done done
      obtain ⟨_, _, _, _, _, found, _, _, _, appended⟩ := ret_eq_ok.mp applied
      exact resets_of_appendTerminator found appended
  | branch block target =>
      obtain ⟨_, applied⟩ := Operation.reported_done done
      obtain ⟨_, found, _, appended⟩ := branch_eq_ok.mp applied
      exact resets_of_appendTerminator found appended
  | condBranch block condition thenBlock elseBlock =>
      obtain ⟨_, applied⟩ := Operation.reported_done done
      obtain ⟨_, _, found, _, _, _, _, appended⟩ := condBranch_eq_ok.mp applied
      exact resets_of_appendTerminator found appended
  | unreachable block =>
      obtain ⟨_, applied⟩ := Operation.reported_done done
      obtain ⟨_, found, appended⟩ := unreachable_eq_ok.mp applied
      exact resets_of_appendTerminator found appended

end TypedIR
