import TypedIR.Proofs.Ownership.Integers
import TypedIR.Proofs.Print.Mentions
import TypedIR.Proofs.Print.Total
import TypedIR.Proofs.Workspace.Constants
import TypedIR.Proofs.Workspace.Tasks

/-!
Contract: integer constants, from the number that they are built from to their text.

Owns:
- building an integer constant at any time, which stores a residue of its number;
- the text of such a constant as an operand of any function;
- that both hold on as long as the context lives.

Does not own: the arithmetic of residues.
-/

namespace TypedIR

variable {σ : Type} {engine : Engine σ} {settings : Settings}

/-! ### Operands -/

/-- How an integer constant is printed, given the number that it was built from and the one that
it stores. -/
def writtenInteger (bits : UInt32) (number stored : Int64) : String :=
  if bits = 1 then (if Odd number.toInt then "true" else "false") else toString stored.toInt

/-- An integer constant is printed without regard to the function that it is an operand in. -/
theorem Context.operandText_integer {context : Context} {entry : FunctionEntry}
    {names : LocalNames} {value : ValueRef} {type : TypeRef} {bits : UInt32} {number : Int64}
    (coherent : context.Coherent) (member : entry ∈ context.functions)
    (named : context.NamesLocals entry names)
    (held : context.Holds value type (.integer (truncate bits number)))
    (known : context.shape? type = some (.integer bits)) :
    context.operandText names value =
      .ok (writtenInteger bits number (truncate bits number)) := by
  have unnamed := unnamed_of_constant coherent member named held rfl
  obtain ⟨name, found⟩ := held
  have resolved : context.resolveType (context.typeId type) = .ok (.integer bits) :=
    resolveType_eq_ok.mpr ⟨rfl, known⟩
  rw [operandText, operandWithin_succ, operandFrom, unnamed, found]
  refine bind_eq_ok.mpr ⟨_, resolved, congrArg Except.ok ?_⟩
  unfold writtenInteger
  by_cases single : bits = 1
  · subst single
    by_cases even : Even number.toInt
    · have zero := truncate_one_eq_zero_iff.mpr even
      rw [if_pos rfl, if_pos rfl, if_pos zero, if_neg (Int.not_odd_iff_even.mpr even)]
    · have nonzero := fun zero => even (truncate_one_eq_zero_iff.mp zero)
      rw [if_pos rfl, if_pos rfl, if_neg nonzero, if_pos (Int.not_even_iff_odd.mp even)]
  · have other : TypeShape.integer bits ≠ .integer 1 := fun same => single (by injection same)
    rw [if_neg other, if_neg single]

namespace Workspace

variable {workspace : Workspace σ} {id : ContextId} {context : Context} {type : TypeRef}
  {bits : UInt32}

/-! ### Building constants -/

/-- An integer constant of the type is built from the number: the value is new, it stores a number,
and nothing else changes. -/
structure BuildsInteger (engine : Engine σ) (workspace : Workspace σ) (id : ContextId)
    (type : TypeRef) (number : Int64) (value : ValueRef) (stored : Int64) : Prop where
  answered : ((Command.edit (.integerConstant ⟨id, type⟩ number)).run engine workspace).result =
    .ok (.handle (.value ⟨id, value⟩))
  fresh : ∀ before, workspace.store.context? id = some before → before.value? value = none
  stores : ∃ after, after.Holds value type (.integer stored) ∧
    Alters id after workspace
      ((Command.edit (.integerConstant ⟨id, type⟩ number)).run engine workspace).workspace

theorem buildsInteger (engine : Engine σ) (found : workspace.store.context? id = some context)
    (self : context.id = id) (known : context.shape? type = some (.integer bits))
    (number : Int64) :
    BuildsInteger engine workspace id type number context.values.size (truncate bits number) := by
  have made : context.integerConstant ⟨id, type⟩ number =
      .ok (context.pushConstant ⟨id, type⟩ (.integer (truncate bits number))) :=
    Context.integerConstant_eq_ok.mpr ⟨self.symm, bits, known, rfl⟩
  have done : (((Edit.integerConstant ⟨id, type⟩ number).operation
      workspace.store.settings).effect context).1 =
        .ok (.handle (.value ⟨id, context.values.size⟩),
          (context.pushConstant ⟨id, type⟩ (.integer (truncate bits number))).2) := by
    refine Operation.map_eq_ok.mpr ⟨⟨id, context.values.size⟩, ?_, rfl⟩
    rw [Operation.integerConstant, Operation.noted, Operation.reported_effect, made, ← self]
    rfl
  obtain ⟨answered, alters⟩ := edit_alters engine rfl rfl found done
  refine ⟨answered, ?_, _, Context.holds_pushValue.mpr (.inr ⟨rfl, rfl, rfl⟩), alters⟩
  intro before lives
  obtain rfl := Option.some.inj (lives.symm.trans found)
  exact Table.get?_eq_none_of_size_le (Nat.le_refl _)

theorem BuildsInteger.eq_truncate (found : workspace.store.context? id = some context)
    (self : context.id = id) (known : context.shape? type = some (.integer bits))
    {number stored : Int64} {value : ValueRef}
    (builds : BuildsInteger engine workspace id type number value stored) :
    stored = truncate bits number := by
  have made := buildsInteger engine found self known number
  have same := Except.ok.inj (builds.answered.symm.trans made.answered)
  obtain ⟨after, held, alters⟩ := builds.stores
  obtain ⟨other, otherHeld, otherAlters⟩ := made.stores
  obtain rfl := Option.some.inj (alters.here.symm.trans otherAlters.here)
  injection same with same
  injection same with same
  injection same with _ same
  rw [same] at held
  exact ValueKind.integer.inj (held.unique otherHeld).2

/-! ### Types at all times -/

/-- A type stays as long as its context. -/
theorem type_stays (settings : Settings) (native : σ) (earlier : List (Engine σ × Task))
    {shape : TypeShape}
    (found : ((start settings native).pursue earlier).1.store.context? id = some context)
    (known : context.shape? type = some shape) {later : List (Engine σ × Task)}
    (spared : ∀ step ∈ later, step.2.target? ≠ some id) :
    ∃ last, (((start settings native).pursue earlier).1.pursue later).1.store.context? id =
      some last ∧ last.id = id ∧ last.Coherent ∧ last.shape? type = some shape := by
  have accountable := accountable_pursue (accountable_start settings native) earlier
  obtain ⟨last, lives, _⟩ := pursue_stays accountable found spared
  have within : Store.Lasting.Within settings Store.Sound
      ((start settings native).pursue earlier).1 :=
    Store.lasting_sound.pursue ⟨every_start settings _, Store.sound_empty settings⟩ earlier
  have kept : Context.Invariant settings fun context => context.shape? type = some shape :=
    fun _ _ _ _ held change => change.persists.shapes _ _ held
  obtain ⟨self, coherent⟩ := (Store.lasting_sound.pursue within later).1.contexts id last lives
  exact ⟨last, lives, self, coherent, holds_pursue within kept found known later lives⟩

theorem BuildsInteger.printed (settings : Settings) (native : σ)
    (earlier : List (Engine σ × Task))
    (found : ((start settings native).pursue earlier).1.store.context? id = some context)
    (known : context.shape? type = some (.integer bits)) {number stored : Int64}
    {value : ValueRef}
    (builds : BuildsInteger engine ((start settings native).pursue earlier).1 id type number value
      stored) {later : List (Engine σ × Task)}
    (spared : ∀ step ∈ later, step.2.target? ≠ some id) :
    ∃ last, (((Command.edit (.integerConstant ⟨id, type⟩ number)).run engine
        ((start settings native).pursue earlier).1).workspace.pursue later).1.store.context? id =
          some last ∧
      last.Holds value type (.integer stored) ∧
      ∀ entry ∈ last.functions, ∃ names, last.localNames entry = .ok names ∧
        last.operandText names value = .ok (writtenInteger bits number stored) := by
  have self := ((constantsFormed_pursue settings native earlier).contexts id context found).1
  obtain rfl := builds.eq_truncate found self known
  obtain ⟨after, held, alters⟩ := builds.stores
  obtain ⟨last, lasts, still, _⟩ :=
    built_data_stays settings native earlier engine _ alters.here held rfl spared
  have allSpared : ∀ step ∈ (engine, Task.request (.command
      (.edit (.integerConstant ⟨id, type⟩ number)))) :: later, step.2.target? ≠ some id :=
    List.forall_mem_cons.mpr ⟨by simp [Task.target?], spared⟩
  obtain ⟨other, otherLasts, _, coherent, lastKnown⟩ :=
    type_stays settings native earlier found known allSpared
  rw [pursue_command] at otherLasts
  obtain rfl := Option.some.inj (otherLasts.symm.trans lasts)
  refine ⟨other, lasts, still, fun entry member => ?_⟩
  obtain ⟨names, done, named⟩ := coherent.namesLocals member
  exact ⟨names, done, Context.operandText_integer coherent member named still lastKnown⟩

/-- What integer constants of a type of the width store, and how they are printed. -/
structure StoresResidues (engine : Engine σ) (workspace : Workspace σ) (id : ContextId)
    (type : TypeRef) (bits : UInt32) : Prop where
  admissible : 0 < bits ∧ bits ≤ workspace.store.settings.maxIntegerWidth
  /-- A constant is built from any number, and stores its only residue in the signed range. -/
  residue : ∀ number, ∃ value stored,
    BuildsInteger engine workspace id type number value stored ∧
      IsResidue bits number.toInt stored.toInt ∧
      (∀ other, IsResidue bits number.toInt other → other = stored.toInt) ∧
      (64 ≤ bits → stored = number)
  /-- What is stored is stored again when a constant is built from it. -/
  settled : ∀ number value stored, BuildsInteger engine workspace id type number value stored →
    ∀ later : List (Engine σ × Task), (∀ step ∈ later, step.2.target? ≠ some id) →
      ∃ fresh, BuildsInteger engine (workspace.pursue later).1 id type stored fresh stored
  /-- Two constants store the same exactly if they are built from congruent numbers, whatever
  happens in between. -/
  alike : ∀ number value stored, BuildsInteger engine workspace id type number value stored →
    ∀ later : List (Engine σ × Task), (∀ step ∈ later, step.2.target? ≠ some id) →
      ∀ other otherValue otherStored,
        BuildsInteger engine (workspace.pursue later).1 id type other otherValue otherStored →
          (stored = otherStored ↔ number.toInt ≡ other.toInt [ZMOD modulus bits])
  /-- From then on, the constant keeps what it stores and is printed as that number, or by the
  parity of the number that it was built from. -/
  printed : ∀ number value stored, BuildsInteger engine workspace id type number value stored →
    ∀ later : List (Engine σ × Task), (∀ step ∈ later, step.2.target? ≠ some id) →
      ∃ last, (((Command.edit (.integerConstant ⟨id, type⟩ number)).run engine
          workspace).workspace.pursue later).1.store.context? id = some last ∧
        last.Holds value type (.integer stored) ∧
        ∀ entry ∈ last.functions, ∃ names, last.localNames entry = .ok names ∧
          last.operandText names value = .ok (writtenInteger bits number stored)

theorem integer_constants_residues (settings : Settings) (native : σ)
    (earlier : List (Engine σ × Task)) (engine : Engine σ)
    (found : ((start settings native).pursue earlier).1.store.context? id = some context)
    (known : context.shape? type = some (.integer bits)) :
    StoresResidues engine ((start settings native).pursue earlier).1 id type bits := by
  have every := constantsFormed_pursue settings native earlier
  obtain ⟨self, coherent, canonical, _⟩ := every.contexts id context found
  obtain ⟨positive, fits⟩ := Settings.checkWidth_eq_ok.mp (canonical.formed type _ known)
  refine
    { admissible := ⟨positive, by rw [every.settings]; exact fits⟩
      residue := ?_
      settled := ?_
      alike := ?_
      printed := ?_ }
  · intro number
    exact ⟨_, _, buildsInteger engine found self known number,
      isResidue_truncate positive number, fun other given => (isResidue_iff positive).mp given,
      truncate_of_wide⟩
  · intro number value stored builds later spared
    obtain rfl := builds.eq_truncate found self known
    obtain ⟨last, lives, lastSelf, _, still⟩ :=
      type_stays settings native earlier found known spared
    have again := buildsInteger engine lives lastSelf still (truncate bits number)
    rw [truncate_truncate positive] at again
    exact ⟨_, again⟩
  · intro number value stored builds later spared other otherValue otherStored otherBuilds
    obtain ⟨last, lives, lastSelf, _, still⟩ :=
      type_stays settings native earlier found known spared
    rw [builds.eq_truncate found self known, otherBuilds.eq_truncate lives lastSelf still]
    exact truncate_eq_iff positive
  · intro number value stored builds later spared
    exact builds.printed settings native earlier found known spared

/-- A context with integer types of one bit, and of 63, 64 and 65 bits. -/
def widthsRun : List (Engine ReferenceState × Task) :=
  let context : ContextId := ⟨0, 0⟩
  let commands : List Command :=
    .createContext "widths" ::
      [1, 63, 64, 65].map fun bits => .edit (.integerType context bits)
  commands.map fun command => (.reference, .request (.command command))

/-- What a constant of a type of the run stores. -/
def widthsRunStores (type : TypeRef) (number : Int64) : Option ValueKind :=
  (((Command.edit (.integerConstant ⟨⟨0, 0⟩, type⟩ number)).run Engine.reference
    ((start .standard .start).pursue widthsRun).1).workspace.store.context? ⟨0, 0⟩).bind
      fun context => (context.value? 0).map (·.kind)

/-- A single bit stores minus one for odd numbers, and 63 bits do not hold the number after their
greatest one, as the wider types do. -/
theorem widthsRun_stored :
    StoresResidues Engine.reference ((start .standard .start).pursue widthsRun).1 ⟨0, 0⟩ 0 1 ∧
      StoresResidues Engine.reference ((start .standard .start).pursue widthsRun).1 ⟨0, 0⟩ 1 63 ∧
      StoresResidues Engine.reference ((start .standard .start).pursue widthsRun).1 ⟨0, 0⟩ 2 64 ∧
      StoresResidues Engine.reference ((start .standard .start).pursue widthsRun).1 ⟨0, 0⟩ 3 65 ∧
      widthsRunStores 0 7 = some (.integer (-1)) ∧
      [1, 2, 3].map (widthsRunStores · 4611686018427387904) =
        [some (.integer (-4611686018427387904)), some (.integer 4611686018427387904),
          some (.integer 4611686018427387904)] := by
  have shapes : (((start .standard .start).pursue widthsRun).1.store.context? ⟨0, 0⟩).map
      (fun context => [0, 1, 2, 3].map context.shape?) =
        some [some (.integer 1), some (.integer 63), some (.integer 64), some (.integer 65)] := by
    decide +kernel
  obtain ⟨context, found, each⟩ := Option.map_eq_some_iff.mp shapes
  simp only [List.map_cons, List.map_nil, List.cons.injEq, and_true] at each
  obtain ⟨bit, narrow, word, wide⟩ := each
  have residues := fun type bits => @integer_constants_residues _ ⟨0, 0⟩ context type bits .standard
    ReferenceState.start widthsRun Engine.reference found
  exact ⟨residues 0 1 bit, residues 1 63 narrow, residues 2 64 word, residues 3 65 wide,
    by decide +kernel, by decide +kernel⟩

end Workspace

end TypedIR
