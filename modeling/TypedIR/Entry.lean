import TypedIR.Attribute.Table
import TypedIR.Instruction
import TypedIR.Types.Shape

/-!
Contract: what the tables of a context hold: values, blocks and functions.

Owns:
- the kinds of values, with the constants among them;
- a block, its function and its instructions in order;
- a function, its parts and its attachments, and what the last verification said
  of it.

Entries refer to each other by position.
-/

namespace TypedIR

inductive ValueKind where
  /-- A residue of the type's width, or the number itself from 64 bits on. -/
  | integer (number : Int64)
  | array (elements : List ValueRef)
  | bytes (content : List UInt8)
  | struct (fields : List ValueRef)
  | undefined
  | function
  | parameter (function : ValueRef) (position : Nat)
  | instruction (block : BlockRef) (code : Instruction)
deriving DecidableEq, Repr

namespace ValueKind

def isConstant : ValueKind → Bool
  | .integer _ | .array _ | .bytes _ | .struct _ | .undefined | .function => true
  | .parameter _ _ | .instruction _ _ => false

/-- The constants that a composite constant is made of. -/
def parts : ValueKind → List ValueRef
  | .array elements => elements
  | .struct fields => fields
  | _ => []

end ValueKind

structure Value where
  type : TypeRef
  kind : ValueKind
  /-- Empty for an anonymous value. -/
  name : String
deriving DecidableEq, Repr

structure Block where
  function : ValueRef
  name : String
  instructions : List ValueRef
deriving DecidableEq, Repr

/-- What is recorded of a function's last verification; any edit of the function sets it back. -/
inductive VerificationState where
  | unverified
  | verified
  | invalid (reasons : List String)
deriving DecidableEq, Repr

def VerificationState.word : VerificationState → String
  | .unverified => "unverified"
  | .verified => "verified"
  | .invalid _ => "invalid"

def VerificationState.reasons : VerificationState → List String
  | .invalid reasons => reasons
  | _ => []

structure FunctionEntry where
  /-- The function as a value. -/
  self : ValueRef
  signature : TypeRef
  parameters : List ValueRef
  blocks : List BlockRef
  /-- A native code; not every code has a name. -/
  convention : UInt32
  personality : Option ValueRef
  /-- The strategy of garbage collection. -/
  collector : Option String
  attributes : AttributeTable
  state : VerificationState
deriving DecidableEq

namespace FunctionEntry

/-- A function just declared: no body, no attachments. -/
def declared (self : ValueRef) (signature : TypeRef) (parameters : List ValueRef)
    (convention : UInt32) : FunctionEntry where
  self := self
  signature := signature
  parameters := parameters
  blocks := []
  convention := convention
  personality := none
  collector := none
  attributes := .empty
  state := .unverified

/-- The function after a change that a verifier could notice. -/
def edited (entry : FunctionEntry) : FunctionEntry := { entry with state := .unverified }

/-- A function with blocks is a definition, one without a declaration. -/
def isDefinition (entry : FunctionEntry) : Bool := !entry.blocks.isEmpty

end FunctionEntry

end TypedIR
