import TypedIR.Context.Functions

/-!
Contract: the contexts of a store, in slots that are used again.

Owns:
- slots with generations: the context of a slot is found only under the
  generation it was created in;
- creation, which takes the slot freed last or a new one;
- destruction, which empties the slot and frees it under the next generation, or
  retires it when there is no next one;
- looking into one context, and putting another in its place.

Does not own: the engine that backs the contexts.
-/

namespace TypedIR

structure Slot where
  generation : Nat
  context : Option Context
deriving DecidableEq

/-- The last generation of a slot. -/
def maxGeneration : Nat := 4294967295

structure Store where
  settings : Settings
  slots : Array Slot
  /-- The slots to use again, the one freed last in front. -/
  free : List Nat
deriving DecidableEq

namespace Store

def empty (settings : Settings) : Store := ⟨settings, #[], []⟩

def context? (store : Store) (id : ContextId) : Option Context :=
  match store.slots[id.index]? with
  | some slot => if slot.generation = id.generation then slot.context else none
  | none => none

def isAlive (store : Store) (id : ContextId) : Bool := (store.context? id).isSome

/-- The live contexts in the order of their slots. -/
def contexts (store : Store) : List Context := store.slots.toList.filterMap Slot.context

/-- A live context, or the fault of using a released one. -/
def resolve (store : Store) (id : ContextId) : Except Fault Context :=
  match store.context? id with
  | some context => .ok context
  | none => .error (.released (.context id))

/-- The store with another context in a slot. -/
def put (store : Store) (index : Nat) (context : Context) : Store :=
  { store with
    slots := store.slots.modify index fun slot => { slot with context := some context } }

/-- Reads from a live context. -/
def read (store : Store) (id : ContextId) (query : Context → Except Fault α) :
    Except Fault α := do
  query (← store.resolve id)

/-- The identity that the next context gets. -/
def nextId (store : Store) : ContextId :=
  match store.free with
  | index :: _ => ⟨index, ((store.slots[index]?).map (·.generation)).getD 0⟩
  | [] => ⟨store.slots.size, 0⟩

/-- A fresh context backed by a native handle. -/
def create (store : Store) (native : NativeHandle) (moduleName : String) : ContextId × Store :=
  let id := store.nextId
  let context := Context.empty id native moduleName
  match store.free with
  | _ :: rest => (id, { store.put id.index context with free := rest })
  | [] => (id, { store with slots := store.slots.push ⟨0, some context⟩ })

/-- Removes a live context and gives it back. -/
def destroy (store : Store) (id : ContextId) : Except Fault (Context × Store) := do
  let context ← store.resolve id
  if id.generation < maxGeneration then
    return (context, { store with
      slots := store.slots.setIfInBounds id.index ⟨id.generation + 1, none⟩
      free := id.index :: store.free })
  else
    return (context, { store with slots := store.slots.setIfInBounds id.index ⟨id.generation, none⟩ })

def recordState (store : Store) (function : FunctionId) (state : VerificationState) : Store :=
  match store.context? function.context with
  | some context => store.put function.context.index (context.recordState function.index state)
  | none => store

end Store

end TypedIR
