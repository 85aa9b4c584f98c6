import TypedIR.Proofs.Check.Verdict
import TypedIR.Proofs.Ownership.Typing

/-!
Contract: recorded verdicts under the changes of a context.

Owns:
- what an elementary change leaves of a function: it is unverified afterwards, or all
  that a check of it reads is as before, but for the record or the name that the
  change is about;
- two properties of a record: it is the verdict of a check now, and it tells whether
  a check now accepts the function;
- which changes keep either.

Does not own: which commands make which changes.
-/

namespace TypedIR

namespace Context

variable {settings : Settings} {effect : Effect} {context before after : Context}
  {entry changed : FunctionEntry}

/-! ### What a change leaves -/

/-- To a check the function looks as before, and its record and its name are the same unless
the change is about them. -/
structure Stands (effect : Effect) (before : Context) (entry : FunctionEntry) (after : Context)
    (changed : FunctionEntry) : Prop extends before.Agree entry after changed where
  state : effect ≠ .record entry.self → changed.state = entry.state
  name : effect ≠ .rename entry.self → after.value? entry.self = before.value? entry.self

theorem value?_of_pushAll {entries : List Value}
    (values : after.values = before.values.pushAll entries) {value : ValueRef}
    (issued : value < before.values.size) : after.value? value = before.value? value := by
  rw [value?, values, Table.get?_pushAll, if_pos issued, value?]

/-- A function stands if values come at the end only and its blocks stay. -/
theorem Stands.of_pushAll {entries : List Value} (issued : entry.self < before.values.size)
    (body : entry.SameBody changed) (id : after.id = before.id)
    (values : after.values = before.values.pushAll entries)
    (block? : ∀ block ∈ entry.blocks, after.block? block = before.block? block)
    (parents : ∀ block, block < before.blocks.size → after.parent? block = before.parent? block)
    (functions : ∀ function, function < before.values.size →
      (after.IsFunction function ↔ before.IsFunction function))
    (state : effect ≠ .record entry.self → changed.state = entry.state) :
    Stands effect before entry after changed where
  toSameBody := body
  id := id
  block? := block?
  values := by
    intro value valueIssued type kind
    rw [Holds, Holds, value?_of_pushAll values valueIssued]
  parents := parents
  functions := functions
  state := state
  name := fun _ => value?_of_pushAll values issued

/-- An edit of one function marks that one as unverified, and the others stand if their blocks
do. -/
theorem unverified_or_stands_of_edit {function : ValueRef} {entries : List Value}
    (owned : before.Owned) (change : FunctionEntry → FunctionEntry)
    (functions : after.functions =
      (before.updateFunction function fun entry => (change entry).edited).functions)
    (self : ∀ entry : FunctionEntry, (change entry).self = entry.self) (id : after.id = before.id)
    (values : after.values = before.values.pushAll entries)
    (block? : ∀ entry ∈ before.functions, entry.self ≠ function → ∀ block ∈ entry.blocks,
      after.block? block = before.block? block)
    (parents : ∀ block, block < before.blocks.size → after.parent? block = before.parent? block)
    (member : changed ∈ after.functions) :
    changed.state = .unverified ∨
      ∃ entry ∈ before.functions, Stands effect before entry after changed := by
  rw [functions] at member
  obtain ⟨old, oldMember, rfl⟩ := mem_updateFunction.mp member
  by_cases same : old.self = function
  · rw [if_pos same]
    exact .inl rfl
  · rw [if_neg same]
    refine .inr ⟨old, oldMember, .of_pushAll (owned.functions.lt_size ⟨old, oldMember, rfl⟩)
      ⟨rfl, rfl, rfl, rfl⟩ id values (block? old oldMember same) parents
      (fun _ _ => isFunction_map functions fun entry => ?_) fun _ => rfl⟩
    split
    · exact self entry
    · rfl

end Context

open Context in
/-- After a change, a function is unverified or stands as before. -/
theorem Change.unverified_or_stands {settings : Settings} {effect : Effect}
    {before after : Context} {changed : FunctionEntry}
    (change : Change settings effect before after) (owned : before.Owned)
    (member : changed ∈ after.functions) :
    changed.state = .unverified ∨
      ∃ entry ∈ before.functions, Stands effect before entry after changed := by
  have issued : ∀ {entry}, entry ∈ before.functions → entry.self < before.values.size :=
    fun entryMember => owned.functions.lt_size ⟨_, entryMember, rfl⟩
  have whole : ∀ entry : FunctionEntry, entry.SameBody entry := fun _ => ⟨rfl, rfl, rfl, rfl⟩
  have kept : before.values = before.values.pushAll [] := rfl
  cases change with
  | moduleName name =>
      exact .inr ⟨changed, member, .of_pushAll (issued member) (whole _) rfl kept
        (fun _ _ => rfl) (fun _ _ => rfl) (fun _ _ => Iff.rfl) fun _ => rfl⟩
  | type shape fresh formed =>
      exact .inr ⟨changed, member, .of_pushAll (issued member) (whole _) rfl kept
        (fun _ _ => rfl) (fun _ _ => rfl) (fun _ _ => Iff.rfl) fun _ => rfl⟩
  | constant type kind formed =>
      have values : (before.pushValue ⟨type, kind, ""⟩).2.values =
          before.values.pushAll [⟨type, kind, ""⟩] := rfl
      exact .inr ⟨changed, member, .of_pushAll (issued member) (whole _) rfl values
        (fun _ _ => rfl) (fun _ _ => rfl) (fun _ _ => Iff.rfl) fun _ => rfl⟩
  | @declare _ signature _ parameters _ name shape free =>
      rcases mem_withFunction.mp member with old | rfl
      · have values : (before.withFunction settings.convention.code name signature
            parameters).values = before.values.pushAll (⟨signature, .function, name⟩ ::
              parameters.mapIdx fun position type =>
                ⟨type, .parameter before.values.size position, ""⟩) := rfl
        refine .inr ⟨changed, old, .of_pushAll (issued old) (whole _) rfl values
          (fun _ _ => rfl) (fun _ _ => rfl) (fun function earlier => ?_) fun _ => rfl⟩
        rw [isFunction_withFunction]
        exact or_iff_left (Nat.ne_of_lt earlier)
      · exact .inl rfl
  | @rename _ value _ name found free =>
      refine .inr ⟨changed, member,
        { toSameBody := whole _
          id := rfl
          block? := fun _ _ => rfl
          values := fun _ _ _ _ => holds_withName
          parents := fun _ _ => rfl
          functions := fun _ _ => Iff.rfl
          state := fun _ => rfl
          name := fun other => ?_ }⟩
      have lookup : (before.withName value name).value? changed.self =
          if changed.self = value then
            (before.value? changed.self).map fun entry => { entry with name := name }
          else before.value? changed.self := Table.get?_modify _ _ _ _
      rw [lookup, if_neg fun same => other (congrArg Effect.rename same.symm)]
  | block name found =>
      refine unverified_or_stands_of_edit owned _ rfl (fun _ => rfl) rfl kept ?_ ?_ member
      · intro entry entryMember other block listed
        have blockIssued := owned.blocks.lt_size entryMember listed
        exact (Table.get?_push _ _ _).trans (if_neg (Nat.ne_of_lt blockIssued))
      · intro block blockIssued
        rw [parent?_withBlock, if_neg (Nat.ne_of_lt blockIssued)]
  | configure change found frame personality =>
      exact unverified_or_stands_of_edit owned change rfl (fun entry => (frame entry).self) rfl kept
        (fun _ _ _ _ _ => rfl) (fun _ _ => rfl) member
  | delete found =>
      obtain ⟨_, _, _, rfl⟩ := mem_withoutFunction.mp member
      exact .inl rfl
  | @append _ block home type code name found typed targets =>
      have values : (before.appendInstruction home.function block type code name).2.values =
          before.values.pushAll [⟨type, .instruction block code, name⟩] := rfl
      refine unverified_or_stands_of_edit owned (fun entry => entry) rfl (fun _ => rfl) rfl values
        ?_ (fun _ _ => parent?_appendInstruction) member
      intro entry entryMember other listedBlock listed
      rw [block?_appendInstruction, if_neg]
      rintro rfl
      have parent := ((owned.blocks.lists entry entryMember).2 listedBlock).mp listed
      rw [parent?, found, Option.map_some] at parent
      exact other (Option.some.inj parent).symm
  | record function state =>
      obtain ⟨old, oldMember, rfl⟩ := mem_updateFunction.mp member
      refine .inr ⟨old, oldMember, .of_pushAll (issued oldMember) ?_ rfl kept
        (fun _ _ => rfl) (fun _ _ => rfl)
        (fun _ _ => isFunction_map rfl fun entry => ?_) fun other => ?_⟩
      · split <;> exact ⟨rfl, rfl, rfl, rfl⟩
      · split <;> rfl
      · rw [if_neg fun same => other (congrArg Effect.record same.symm)]

namespace Context

variable {settings : Settings} {effect : Effect} {context before after : Context}
  {entry : FunctionEntry} {reportUnreachable : Bool} {function : ValueRef}

/-! ### Records -/

/-- What is recorded of the function is the verdict of a check now. -/
def Current (context : Context) (reportUnreachable : Bool) (function : ValueRef) : Prop :=
  ∀ entry, context.function? function = some entry →
    entry.state = .unverified ∨ (context.verdict reportUnreachable entry).state = entry.state

/-- What is recorded of the function tells whether a check now accepts it. -/
def Faithful (context : Context) (reportUnreachable : Bool) (function : ValueRef) : Prop :=
  ∀ entry, context.function? function = some entry →
    entry.state = .unverified ∨
      (context.verdict reportUnreachable entry = .valid ↔ entry.state = .verified)

theorem Current.faithful (current : context.Current reportUnreachable function) :
    context.Faithful reportUnreachable function := by
  intro entry found
  apply (current entry found).imp_right
  intro same
  rw [← same, Verdict.state_eq_verified]

/-- A function that stands was found before the change. -/
theorem unverified_or_stands_of_function? (owned : before.Owned)
    (change : Change settings effect before after) {changed : FunctionEntry}
    (found : after.function? function = some changed) :
    changed.state = .unverified ∨ ∃ entry ∈ before.functions,
      before.function? function = some entry ∧ entry.self = function ∧
        Stands effect before entry after changed := by
  obtain ⟨member, self⟩ := mem_of_function? found
  apply (change.unverified_or_stands owned member).imp_right
  rintro ⟨entry, entryMember, stands⟩
  have same : entry.self = function := stands.self.symm.trans self
  exact ⟨entry, entryMember, same ▸ function?_of_mem owned.functions.distinct entryMember, same,
    stands⟩

/-- No change but a new record makes a record tell the wrong thing. -/
theorem Faithful.step (faithful : before.Faithful reportUnreachable function)
    (owned : before.Owned) (grounded : before.Grounded)
    (change : Change settings effect before after) (noRecord : effect ≠ .record function) :
    after.Faithful reportUnreachable function := by
  intro changed found
  rcases unverified_or_stands_of_function? owned change found with unverified | stood
  · exact .inl unverified
  · obtain ⟨entry, member, live, rfl, stands⟩ := stood
    rw [stands.verdict_eq_valid owned grounded member, stands.state noRecord]
    exact faithful entry live

/-- Unless the function gets another name, the whole verdict stays. -/
theorem Current.step (current : before.Current reportUnreachable function)
    (owned : before.Owned) (grounded : before.Grounded)
    (change : Change settings effect before after) (noRecord : effect ≠ .record function)
    (sameName : effect ≠ .rename function) : after.Current reportUnreachable function := by
  intro changed found
  rcases unverified_or_stands_of_function? owned change found with unverified | stood
  · exact .inl unverified
  · obtain ⟨entry, member, live, rfl, stands⟩ := stood
    rw [stands.verdict owned grounded member (stands.name sameName), stands.state noRecord]
    exact current entry live

/-- A verdict that was just recorded is current. -/
theorem current_recordState (owned : context.Owned) (grounded : context.Grounded)
    (live : context.function? function = some entry) :
    (context.recordState function (context.verdict reportUnreachable entry).state).Current
      reportUnreachable function := by
  intro changed found
  have recorded : changed.state = (context.verdict reportUnreachable entry).state := by
    obtain ⟨member, self⟩ := mem_of_function? found
    obtain ⟨old, _, rfl⟩ := mem_updateFunction.mp member
    by_cases same : old.self = function
    · rw [if_pos same]
    · rw [if_neg same] at self
      exact absurd self same
  have change : Change .standard (.record function) context _ :=
    .record function (context.verdict reportUnreachable entry).state
  rcases unverified_or_stands_of_function? owned change found with unverified | stood
  · exact .inl unverified
  · obtain ⟨old, member, oldLive, rfl, stands⟩ := stood
    obtain rfl := Option.some.inj (oldLive.symm.trans live)
    have sameName : Effect.record old.self ≠ .rename old.self := fun equal => by cases equal
    rw [stands.verdict owned grounded member (stands.name sameName)]
    exact .inr recorded.symm

theorem Current.recordState (current : context.Current reportUnreachable function)
    (owned : context.Owned) (grounded : context.Grounded) {other : ValueRef}
    (live : context.function? other = some entry) :
    (context.recordState other (context.verdict reportUnreachable entry).state).Current
      reportUnreachable function := by
  by_cases same : other = function
  · exact same ▸ current_recordState owned grounded live
  · have change : Change .standard (.record other) context _ :=
      .record other (context.verdict reportUnreachable entry).state
    exact current.step owned grounded change (fun equal => same (Effect.record.inj equal))
      fun equal => by cases equal

theorem Faithful.recordState (faithful : context.Faithful reportUnreachable function)
    (owned : context.Owned) (grounded : context.Grounded) {other : ValueRef}
    (live : context.function? other = some entry) :
    (context.recordState other (context.verdict reportUnreachable entry).state).Faithful
      reportUnreachable function := by
  by_cases same : other = function
  · exact same ▸ (current_recordState owned grounded live).faithful
  · have change : Change .standard (.record other) context _ :=
      .record other (context.verdict reportUnreachable entry).state
    exact faithful.step owned grounded change fun equal => same (Effect.record.inj equal)

end Context

end TypedIR
