import TypedIR.Engine.Reference

/-!
Contract: an engine that follows a script where it has one, and otherwise does as
the reference engine.

Owns:
- the script: the codes it accepts, its judgements on functions by their names,
  and the bytes of every module.
-/

namespace TypedIR

structure Script where
  name : String
  /-- The only codes to accept; none leaves the choice to the reference engine. -/
  accepted : Option (List UInt32)
  judgements : List (String × Judgement)
  written : Option (List UInt8)
deriving DecidableEq, Repr

namespace Script

def accepts (script : Script) (code : UInt32) : Bool :=
  match script.accepted with
  | some codes => codes.contains code
  | none => code ≤ CallConvention.maxCode

/-- The scripted judgement on a function, by the name it has in the store. -/
def judgement? (script : Script) (store : Store) (function : FunctionId) : Option Judgement :=
  match store.read function.context fun context => context.functionName function with
  | .ok name => script.judgements.lookup name
  | .error _ => none

end Script

namespace Engine

def scripted (script : Script) : Engine ReferenceState where
  name := script.name
  create := reference.create
  dispose := reference.dispose
  accepts _ code := script.accepts code
  verify state store function :=
    match script.judgement? store function with
    | some judgement => judgement
    | none => reference.verify state store function
  write state store context :=
    match script.written with
    | some bytes => .ok bytes
    | none => reference.write state store context

end Engine

end TypedIR
