import TypedIR.Text.Lines

/-!
Contract: types in full, and their text.

Owns:
- the tree of a type, all components expanded;
- its text: `void`, `label`, `i32`, `[4 x i8]`, `{ i8, i16 }`, the same between
  `<` and `>` when packed, and `i32 (i8, ...)` for functions;
- the terms that a description can write: all types but labels and functions, and
  the tree that a term denotes.

Does not own: the part of this text that can be read back.
-/

namespace TypedIR

inductive TypeTree where
  | void
  | label
  | integer (bits : UInt32)
  | array (element : TypeTree) (length : UInt32)
  | struct (fields : List TypeTree) (packed : Bool)
  | function (result : TypeTree) (parameters : List TypeTree) (variadic : Bool)
deriving Repr

namespace TypeTree

/-- Texts between braces, set off by blanks unless there are none. -/
def braced (parts : List String) : String :=
  if parts.isEmpty then "\x7b\x7d" else "\x7b " ++ Text.joined ", " parts ++ " \x7d"

/-- A struct's body, between angle brackets when packed. -/
def structText (packed : Bool) (parts : List String) : String :=
  if packed then "<" ++ braced parts ++ ">" else braced parts

mutual

def text : TypeTree → String
  | .void => "void"
  | .label => "label"
  | .integer bits => "i" ++ toString bits.toNat
  | .array element length => "[" ++ toString length.toNat ++ " x " ++ element.text ++ "]"
  | .struct fields packed => structText packed (texts fields)
  | .function result parameters variadic =>
      result.text ++ " (" ++
        Text.joined ", " (texts parameters ++ if variadic then ["..."] else []) ++ ")"

def texts : List TypeTree → List String
  | [] => []
  | tree :: trees => tree.text :: texts trees

end

end TypeTree

/-! ### Terms -/

inductive TypeTerm where
  | void
  | integer (bits : UInt32)
  | array (element : TypeTerm) (length : UInt32)
  | struct (fields : List TypeTerm) (packed : Bool)
deriving Repr

mutual

def TypeTerm.tree : TypeTerm → TypeTree
  | .void => .void
  | .integer bits => .integer bits
  | .array element length => .array element.tree length
  | .struct fields packed => .struct (TypeTerm.trees fields) packed

def TypeTerm.trees : List TypeTerm → List TypeTree
  | [] => []
  | term :: terms => term.tree :: TypeTerm.trees terms

end

end TypedIR
