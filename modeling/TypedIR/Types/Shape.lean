/-!
Contract: the structure of one type, whose components are entries of a table of
types.

Owns:
- the shapes and the references between them;
- the classes that typing rules ask for.

Does not own: the table, nor the texts of types.
-/

namespace TypedIR

/-- The position of a type in its context. -/
abbrev TypeRef := Nat

inductive TypeShape where
  | void
  /-- The type of block addresses. -/
  | label
  | integer (bits : UInt32)
  | array (element : TypeRef) (length : UInt32)
  | struct (fields : List TypeRef) (packed : Bool)
  | function (result : TypeRef) (parameters : List TypeRef) (variadic : Bool)
deriving DecidableEq, Repr

namespace TypeShape

def isInteger : TypeShape → Bool
  | .integer _ => true
  | _ => false

/-- Types that can be stored, passed and returned. -/
def isSized : TypeShape → Bool
  | .integer _ | .array _ _ | .struct _ _ => true
  | _ => false

def isVoid : TypeShape → Bool
  | .void => true
  | _ => false

/-- The types that a shape is made of. -/
def components : TypeShape → List TypeRef
  | .void | .label | .integer _ => []
  | .array element _ => [element]
  | .struct fields _ => fields
  | .function result parameters _ => result :: parameters

end TypeShape

end TypedIR
