import TypedIR.Description.Fault
import TypedIR.Operation
import TypedIR.Types.Tree

/-!
Contract: the construction of one context step by step.

Owns:
- the draft, the context so far and what an observer has seen;
- constructions, which end in a result or a fault and leave a draft in both cases;
- the steps of a construction: an operation, a look at the context, a fault;
- the types of a context for type terms.

A construction never leaves its context, so the engine takes part only by the
codes that it accepts.
-/

namespace TypedIR.Description

/-- What a construction depends on besides its draft. -/
structure Terms where
  settings : Settings
  /-- The convention codes that the engine accepts. -/
  accepts : UInt32 → Bool
  /-- The name of the engine. -/
  engine : String

structure Draft where
  context : Context
  events : List Event

abbrev Construction := ExceptT BuildFault (StateM Draft)

namespace Construction

def fail (cause : Cause) : Construction α := throw ⟨[], cause⟩

/-- The draft's context. -/
def context : Construction Context := return (← getThe Draft).context

def emit (events : List Event) : Construction Unit :=
  modifyThe Draft fun draft => { draft with events := draft.events ++ events }

/-- Runs an operation of the draft's context. -/
def perform (operation : Operation α) : Construction α := do
  match operation.screen with
  | .error fault => fail (.refused fault)
  | .ok () =>
      let (result, events) := operation.effect (← context)
      emit events
      match result with
      | .error fault => fail (.refused fault)
      | .ok (value, changed) =>
          modifyThe Draft fun draft => { draft with context := changed }
          return value

/-- What a question about the draft's context finds out. -/
def inspect (query : Context → Except Fault α) : Construction α := do
  match query (← context) with
  | .error fault => fail (.refused fault)
  | .ok value => return value

/-- Faults of the construction are seen from a place around it. -/
def within (place : Place) (construction : Construction α) : Construction α :=
  tryCatch construction fun fault => throw (fault.within place)

end Construction

mutual

/-- The type of the draft's context that a term denotes; its parts come first. -/
def lowerType (terms : Terms) : TypeTerm → Construction TypeId
  | .void => do
      Construction.perform (.voidType (← Construction.context).id)
  | .integer bits => do
      Construction.perform (.integerType terms.settings (← Construction.context).id bits)
  | .array element length => do
      let element ← lowerType terms element
      Construction.perform (.arrayType element length)
  | .struct fields packed => do
      let fields ← lowerTypes terms fields
      Construction.perform (.structType (← Construction.context).id fields packed)

def lowerTypes (terms : Terms) : List TypeTerm → Construction (List TypeId)
  | [] => return []
  | term :: rest => do
      let type ← lowerType terms term
      let types ← lowerTypes terms rest
      return type :: types

end

end TypedIR.Description
