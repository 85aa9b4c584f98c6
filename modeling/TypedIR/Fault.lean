import TypedIR.Handle
import TypedIR.Text.Lines

/-!
Contract: why an operation on a store is refused.

Owns:
- the causes, each with the handles and numbers that it is about;
- what a typing rule wanted and what it met;
- the message of a cause.

Does not own: the order in which an operation looks for faults.
-/

namespace TypedIR

/-- What a typing rule asks for, or meets. -/
inductive Expectation where
  | integer
  | array
  | struct
  | sized
  | returnable
  | signature
  | condition
  | arguments (count : Nat)
  | noValue
  /-- One type, by its text. -/
  | type (text : String)
deriving DecidableEq, Repr

def Expectation.text : Expectation → String
  | .integer => "integer type"
  | .array => "array type"
  | .struct => "struct type"
  | .sized => "sized type"
  | .returnable => "sized or void return type"
  | .signature => "function signature"
  | .condition => "i1"
  | .arguments count => toString count ++ " arguments"
  | .noValue => "no return value"
  | .type text => text

/-- The tables of native codes. -/
inductive CodeTable where
  | callConvention
  | attributeKind
deriving DecidableEq, Repr

def CodeTable.name : CodeTable → String
  | .callConvention => "CallConvention"
  | .attributeKind => "AttributeKind"

inductive Fault where
  | released (handle : Handle)
  | width (bits : UInt32)
  | length (count : Nat)
  | foreignType (type : TypeId) (expected : ContextId)
  /-- A value, function or block of another context. -/
  | foreignValue (handle : Handle) (expected : ContextId)
  | mismatch (expected found : Expectation)
  | notConstant (value : ValueId)
  | duplicateName (name : String)
  | positionOutOfRange (position count : Nat)
  | notParameter (value : ValueId)
  | alignment (align : UInt32)
  | unsupportedConvention (code : UInt32) (engine : String)
  | noPersonality (function : String)
  | unknownCode (table : CodeTable) (code : UInt32)
  | invalid (reasons : List String)
deriving DecidableEq, Repr

namespace Fault

def message : Fault → String
  | .released handle => "use of " ++ handle.text ++ " after it was released"
  | .width bits => "invalid integer width " ++ toString bits.toNat
  | .length count => "invalid array length " ++ toString count
  | .foreignType type expected =>
      "type " ++ type.text ++ " belongs to " ++ type.context.text ++ ", expected " ++ expected.text
  | .foreignValue handle expected =>
      "value " ++ handle.text ++ " belongs to " ++ handle.tag.text ++ ", expected " ++ expected.text
  | .mismatch expected found =>
      "type mismatch: expected " ++ expected.text ++ ", found " ++ found.text
  | .notConstant value => "value " ++ value.text ++ " is not a constant"
  | .duplicateName name => "a function named '" ++ name ++ "' already exists in this module"
  | .positionOutOfRange position count =>
      "index " ++ toString position ++ " out of range for " ++ toString count ++ " parameters"
  | .notParameter value => "value " ++ value.text ++ " is not a function parameter"
  | .alignment align => "alignment " ++ toString align.toNat ++ " is not a power of two"
  | .unsupportedConvention code engine =>
      "calling convention code " ++ toString code.toNat ++ " rejected by the " ++ engine ++ " engine"
  | .noPersonality function => "function '" ++ function ++ "' has no personality function"
  | .unknownCode table code => "unknown native " ++ table.name ++ " code " ++ toString code.toNat
  | .invalid reasons => "verification failed: " ++ Text.joined "; " reasons

end Fault

end TypedIR
