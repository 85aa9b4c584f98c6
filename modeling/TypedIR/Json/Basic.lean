/-!
Contract: JSON documents as trees.

Owns:
- the tree, which keeps what a reader of documents may have to refuse later: a
  string that escapes an unpaired surrogate, a number beyond all floats, and a
  name that two fields share;
- the nesting depth, and `readable`, the documents that can be taken into memory
  as a whole.

Does not own: the text form, in either direction.
-/

namespace TypedIR

/-- The characters of a JSON string; none when an escape names an unpaired surrogate. -/
abbrev JsonText := Option String

inductive JsonNumber where
  /-- Written without point and exponent, not `-0`, and within 64 bits signed or unsigned. -/
  | integer (value : Int)
  /-- Any other number; `finite` when a float of 64 bits can hold it. -/
  | real (finite : Bool)
deriving DecidableEq, Repr

inductive Json where
  | null
  | bool (value : Bool)
  | number (value : JsonNumber)
  | string (value : JsonText)
  | array (items : List Json)
  | object (fields : List (JsonText × Json))
deriving Repr

namespace Json

def text (value : String) : Json := .string (some value)

def integer (value : Int) : Json := .number (.integer value)

def natural (value : Nat) : Json := .number (.integer value)

def record (fields : List (String × Json)) : Json :=
  .object (fields.map fun field => (some field.1, field.2))

mutual

/-- The number of arrays and objects around the innermost value. -/
def depth : Json → Nat
  | .null | .bool _ | .number _ | .string _ => 0
  | .array items => 1 + depthOfItems items
  | .object fields => 1 + depthOfFields fields

def depthOfItems : List Json → Nat
  | [] => 0
  | item :: items => max item.depth (depthOfItems items)

def depthOfFields : List (JsonText × Json) → Nat
  | [] => 0
  | (_, value) :: fields => max value.depth (depthOfFields fields)

end

mutual

/-- Every string is text and every number finite. -/
def sound : Json → Bool
  | .null | .bool _ => true
  | .number (.integer _) => true
  | .number (.real finite) => finite
  | .string value => value.isSome
  | .array items => soundItems items
  | .object fields => soundFields fields

def soundItems : List Json → Bool
  | [] => true
  | item :: items => item.sound && soundItems items

def soundFields : List (JsonText × Json) → Bool
  | [] => true
  | (name, value) :: fields => name.isSome && value.sound && soundFields fields

end

/-- The deepest nesting that a reader of whole documents follows. -/
def maxDepth : Nat := 127

/-- The document can be taken into memory as a whole below `level` arrays and objects. -/
def readable (level : Nat) (json : Json) : Bool :=
  json.sound && level + json.depth ≤ maxDepth

end Json

end TypedIR
