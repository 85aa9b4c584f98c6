import TypedIR.Fault

/-!
Contract: why a description cannot be built.

Owns:
- the causes: a fault of an operation, or a name that scopes do not allow;
- the places around a cause, the outermost first;
- the chain of messages that leads from the outermost place to the cause.
-/

namespace TypedIR.Description

inductive Cause where
  | refused (fault : Fault)
  /-- A function name, without the `@` that may stand before it. -/
  | unknownFunction (name : String)
  | unknownLocal (name : String)
  | unknownBlock (name : String)
  | duplicateBlock (name : String)
  | malformedOperand (text : String)
deriving DecidableEq, Repr

def Cause.message : Cause → String
  | .refused fault => fault.message
  | .unknownFunction name => "unknown function '@" ++ name ++ "'"
  | .unknownLocal name => "unknown local '%" ++ name ++ "'"
  | .unknownBlock name => "unknown block '%" ++ name ++ "'"
  | .duplicateBlock name => "duplicate block '" ++ name ++ "'"
  | .malformedOperand text => "operand '" ++ text ++ "' must start with '%' or '@'"

inductive Place where
  | function (name : String)
  | block (name : String)
deriving DecidableEq, Repr

def Place.message : Place → String
  | .function name => "in function '" ++ name ++ "'"
  | .block name => "in block '" ++ name ++ "'"

structure BuildFault where
  /-- The outermost place first. -/
  places : List Place
  cause : Cause
deriving DecidableEq, Repr

namespace BuildFault

/-- The fault as it is seen from a place around it. -/
def within (place : Place) (fault : BuildFault) : BuildFault :=
  { fault with places := place :: fault.places }

/-- One message for each place, then the one of the cause. -/
def chain (fault : BuildFault) : List String :=
  fault.places.map Place.message ++ [fault.cause.message]

def message (fault : BuildFault) : String := Text.joined ": " fault.chain

end BuildFault

end TypedIR.Description
