import TypedIR.Proofs.Ownership.Typing

/-!
Contract: the table of types holds each well-formed structure once.

Owns:
- the invariant, and its preservation by every change of a context;
- what the invariant says of the structure at one position.
-/

namespace TypedIR

variable {settings : Settings} {effect : Effect} {context before after : Context}

theorem Settings.checkWidth_eq_ok {bits : UInt32} :
    settings.checkWidth bits = .ok () ↔ 0 < bits ∧ bits ≤ settings.maxIntegerWidth := by
  have positive : ¬ bits = 0 ↔ 0 < bits := by
    rw [UInt32.pos_iff_ne_zero]
  unfold checkWidth
  by_cases refused : bits = 0 ∨ settings.maxIntegerWidth < bits
  · rw [if_pos refused]
    refine iff_of_false (fun equal => by cases equal) fun fits => ?_
    rcases refused with zero | wide
    · exact positive.mpr fits.1 zero
    · exact UInt32.not_lt.mpr fits.2 wide
  · rw [if_neg refused]
    have apart := not_or.mp refused
    exact iff_of_true rfl ⟨positive.mp apart.1, UInt32.not_lt.mp apart.2⟩

/-- A change leaves the table of types alone or appends one new, well-formed structure. -/
theorem Change.types_cases (change : Change settings effect before after) :
    after.types = before.types ∨ ∃ shape, before.findType? shape = none ∧
      before.Forms settings shape ∧ after.types = before.types.push shape := by
  cases change with
  | type shape fresh formed => exact .inr ⟨shape, fresh, formed, rfl⟩
  | _ => exact .inl rfl

namespace Context

theorem Forms.mono
    (types : ∀ type shape, before.shape? type = some shape → after.shape? type = some shape)
    {shape : TypeShape} (formed : before.Forms settings shape) : after.Forms settings shape := by
  cases shape with
  | array element length => exact SizedBy.mono types formed
  | struct fields packed => exact fun field member => SizedBy.mono types (formed field member)
  | function result parameters variadic =>
      refine ⟨?_, fun parameter member => SizedBy.mono types (formed.2 parameter member)⟩
      exact formed.1.imp (SizedBy.mono types) (types _ _)
  | _ => exact formed

/-! ### The invariant -/

/-- Each structure in the table obeys the rules of its constructor, and no two positions hold the
same one. -/
structure Canonical (settings : Settings) (context : Context) : Prop where
  formed : ∀ type shape, context.shape? type = some shape → context.Forms settings shape
  distinct : ∀ first second shape, context.shape? first = some shape →
    context.shape? second = some shape → first = second

theorem canonical_empty (settings : Settings) (id : ContextId) (native : NativeHandle)
    (moduleName : String) : (empty id native moduleName).Canonical settings where
  formed := by simp [empty, shape?]
  distinct := by simp [empty, shape?]

theorem findType?_eq_none {shape : TypeShape} (missing : context.findType? shape = none)
    (type : TypeRef) : context.shape? type ≠ some shape := by
  intro known
  obtain ⟨inside, same⟩ := Array.getElem?_eq_some_iff.mp known
  have apart := Array.findIdx?_eq_none_iff.mp missing context.types[type] (Array.getElem_mem inside)
  exact of_decide_eq_false apart same

theorem shape?_push_eq_some {shape known : TypeShape} {type : TypeRef}
    (types : after.types = before.types.push shape) (found : after.shape? type = some known) :
    before.shape? type = some known ∨ (type = before.types.size ∧ known = shape) := by
  rw [shape?, types, Array.getElem?_push] at found
  by_cases last : type = before.types.size
  · rw [if_pos last] at found
    exact .inr ⟨last, (Option.some.inj found).symm⟩
  · rw [if_neg last] at found
    exact .inl found

theorem Canonical.step (canonical : before.Canonical settings)
    (change : Change settings effect before after) : after.Canonical settings := by
  have kept := change.persists.shapes
  rcases change.types_cases with same | ⟨shape, fresh, formed, pushed⟩
  · have shapes : after.shape? = before.shape? := by
      funext type
      rw [shape?, shape?, same]
    constructor
    · intro type known found
      exact (canonical.formed type known (shapes ▸ found)).mono kept
    · rw [shapes]
      exact canonical.distinct
  · constructor
    · intro type known found
      rcases shape?_push_eq_some pushed found with old | ⟨_, rfl⟩
      · exact (canonical.formed type known old).mono kept
      · exact formed.mono kept
    · intro first second known firstFound secondFound
      rcases shape?_push_eq_some pushed firstFound with firstOld | ⟨firstLast, rfl⟩
      · rcases shape?_push_eq_some pushed secondFound with secondOld | ⟨_, rfl⟩
        · exact canonical.distinct first second known firstOld secondOld
        · exact absurd firstOld (findType?_eq_none fresh first)
      · rcases shape?_push_eq_some pushed secondFound with secondOld | ⟨secondLast, _⟩
        · exact absurd secondOld (findType?_eq_none fresh second)
        · rw [firstLast, secondLast]

/-! ### One structure -/

/-- The structure may stand at the position: its components stand before it and are such as its
constructor asks for. -/
structure ShapeAt (settings : Settings) (context : Context) (type : TypeRef) (shape : TypeShape) :
    Prop where
  components : ∀ component ∈ shape.components, component < type
  width : ∀ bits, shape = .integer bits → 0 < bits ∧ bits ≤ settings.maxIntegerWidth
  element : ∀ element length, shape = .array element length → SizedBy context.shape? element
  fields : ∀ fields packed, shape = .struct fields packed →
    ∀ field ∈ fields, SizedBy context.shape? field
  parameters : ∀ result parameters variadic, shape = .function result parameters variadic →
    ∀ parameter ∈ parameters, SizedBy context.shape? parameter
  result : ∀ result parameters variadic, shape = .function result parameters variadic →
    SizedBy context.shape? result ∨ context.shape? result = some .void

theorem Canonical.shapeAt (canonical : context.Canonical settings) (grounded : context.Grounded)
    {type : TypeRef} {shape : TypeShape} (known : context.shape? type = some shape) :
    context.ShapeAt settings type shape := by
  have formed := canonical.formed type shape known
  refine ⟨grounded.components type shape known, ?_, ?_, ?_, ?_, ?_⟩
  · rintro bits rfl
    exact Settings.checkWidth_eq_ok.mp formed
  · rintro element length rfl
    exact formed
  · rintro fields packed rfl
    exact formed
  · rintro result parameters variadic rfl
    exact formed.2
  · rintro result parameters variadic rfl
    exact formed.1

end Context

end TypedIR
