import TypedIR.Arena.Entry
import TypedIR.InPlace
import TypedIR.Settings

/-!
Contract: an arena, which owns all contexts, and the resolution of handles in it.

Owns:
- slots with generations, and the slots to use again;
- resolution: a handle is looked up in the context that it is tagged with, so each
  look-up may fail at the context or at the entry;
- the text of a type, whose components are looked up one by one;
- the writes that all operations are made of, each behind a look-up of its own.

A type is written on a budget of its own index plus one.
-/

namespace TypedIR

structure Arena.Slot where
  generation : Nat
  contents : Option Arena.Contents

structure Arena where
  settings : Settings
  slots : Array Arena.Slot
  /-- The slots to use again, the one freed last in front. -/
  free : List Nat

namespace Arena

def empty (settings : Settings) : Arena := ⟨settings, #[], []⟩

/-! ### Resolution -/

def contents? (arena : Arena) (id : ContextId) : Option Contents :=
  match arena.slots[id.index]? with
  | some slot => if slot.generation = id.generation then slot.contents else none
  | none => none

def contents (arena : Arena) (id : ContextId) : Except Fault Contents :=
  match arena.contents? id with
  | some contents => .ok contents
  | none => .error (.released (.context id))

def typeKind (arena : Arena) (type : TypeId) : Except Fault TypeKind := do
  let home ← arena.contents type.context
  match home.types[type.index]? with
  | some kind => return kind
  | none => throw (.released (.type type))

def value (arena : Arena) (value : ValueId) : Except Fault Value := do
  let home ← arena.contents value.context
  match home.values.get? value.index with
  | some entry => return entry
  | none => throw (.released (.value value))

def body (arena : Arena) (function : FunctionId) : Except Fault Body := do
  let home ← arena.contents function.context
  match home.bodies.get? function.index with
  | some body => return body
  | none => throw (.released (.function function))

def block (arena : Arena) (block : BlockId) : Except Fault Block := do
  let home ← arena.contents block.context
  match home.blocks.get? block.index with
  | some entry => return entry
  | none => throw (.released (.block block))

/-- A type that has to belong to a context. -/
def typeIn (arena : Arena) (context : ContextId) (type : TypeId) : Except Fault TypeKind :=
  if type.context ≠ context then .error (.foreignType type context) else arena.typeKind type

/-- A value that has to belong to a context. -/
def valueIn (arena : Arena) (context : ContextId) (value : ValueId) : Except Fault Value :=
  if value.context ≠ context then .error (.foreignValue (.value value) context)
  else arena.value value

def functionName (arena : Arena) (function : FunctionId) : Except Fault String := do
  let _ ← arena.body function
  let entry ← arena.value function.toValue
  return entry.name

/-! ### Types in full -/

/-- The text of a type, with so many levels at most. -/
def formatWithin (arena : Arena) : Nat → TypeId → Except Fault String
  | 0, type => throw (.released (.type type))
  | budget + 1, type => do
      match ← arena.typeKind type with
      | .void => return "void"
      | .label => return "label"
      | .integer bits => return "i" ++ toString bits.toNat
      | .array element length =>
          let element ← arena.formatWithin budget element
          return "[" ++ toString length.toNat ++ " x " ++ element ++ "]"
      | .struct fields packed =>
          let fields ← fields.mapM (arena.formatWithin budget)
          return TypeTree.structText packed fields
      | .function result parameters variadic =>
          let parameters ← parameters.mapM (arena.formatWithin budget)
          let result ← arena.formatWithin budget result
          return result ++ " (" ++
            Text.joined ", " (parameters ++ if variadic then ["..."] else []) ++ ")"

def formatType (arena : Arena) (type : TypeId) : Except Fault String :=
  arena.formatWithin (type.index + 1) type

/-- The text of a type in messages, which is there even for a type that is not. -/
def typeExpectation (arena : Arena) (type : TypeId) : Expectation :=
  match arena.formatType type with
  | .ok text => .type text
  | .error _ => .type ("<released " ++ type.text ++ ">")

/-! ### Writes -/

/-- The arena with other contents in a slot. -/
def put (arena : Arena) (index : Nat) (contents : Contents) : Arena :=
  { arena with
    slots := arena.slots.modify index fun slot => { slot with contents := some contents } }

/-- Works on the contents of a live context. What it leaves of them stays in the arena. -/
def within (context : ContextId) (work : InPlace Contents α) : InPlace Arena α := fun arena =>
  match arena.contents context with
  | .error fault => (.error fault, arena)
  | .ok home => ((work home).1, arena.put context.index (work home).2)

def alterValue (value : ValueId) (change : Value → Value) : InPlace Arena Unit := do
  let _ ← .read fun arena => arena.value value
  within value.context <| .write fun home =>
    { home with values := home.values.modify value.index change }

def alterBody (function : FunctionId) (change : Body → Body) : InPlace Arena Unit := do
  let _ ← .read fun arena => arena.body function
  within function.context <| .write fun home =>
    { home with bodies := home.bodies.modify function.index change }

def alterBlock (block : BlockId) (change : Block → Block) : InPlace Arena Unit := do
  let _ ← .read fun arena => arena.block block
  within block.context <| .write fun home =>
    { home with blocks := home.blocks.modify block.index change }

/-- Marks a function as changed since its last verification. -/
def invalidate (function : FunctionId) : InPlace Arena Unit := alterBody function Body.edited

end Arena

end TypedIR
