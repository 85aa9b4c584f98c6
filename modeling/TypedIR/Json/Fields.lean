import TypedIR.Json.Basic

/-!
Contract: reading typed values out of JSON documents.

Owns:
- scalars: a text, a switch, and integers of a given width; a number written as
  a float is never an integer;
- records: required fields, fields with a default, and fields that may be
  absent or null; no field of a record stands twice, and fields nobody asks for
  are passed over. A record may be written as an array of its fields in their
  order;
- variants: records that begin with a tag;
- names of enumerations, written as a text or as an object that maps the name to
  null.

Absence of a value and a value of the wrong form are the same failure, `none`.
-/

namespace TypedIR

namespace Json

def text? : Json → Option String
  | .string value => value
  | _ => none

def bool? : Json → Option Bool
  | .bool value => some value
  | _ => none

def integer? : Json → Option Int
  | .number (.integer value) => some value
  | _ => none

def uint32? (json : Json) : Option UInt32 := do
  let value ← json.integer?
  if 0 ≤ value ∧ value.toNat < UInt32.size then some (UInt32.ofNat value.toNat) else none

def uint64? (json : Json) : Option UInt64 := do
  let value ← json.integer?
  if 0 ≤ value ∧ value.toNat < UInt64.size then some (UInt64.ofNat value.toNat) else none

def int64? (json : Json) : Option Int64 := do
  let value ← json.integer?
  if Int64.minValue.toInt ≤ value ∧ value ≤ Int64.maxValue.toInt then some (Int64.ofInt value)
  else none

def items? : Json → Option (List Json)
  | .array items => some items
  | _ => none

/-- The items of an array, each read the same way. -/
def list? (read : Json → Option α) (json : Json) : Option (List α) := do
  (← json.items?).mapM read

end Json

/-- The fields of a record, with names that are all text. -/
abbrev Fields := List (String × Json)

def Json.fields? : Json → Option Fields
  | .object fields => fields.mapM fun field => field.1.map (·, field.2)
  | _ => none

/-- No field has one of the names twice. -/
def Fields.areSingle (names : List String) (fields : Fields) : Bool :=
  names.all fun name => fields.countP (fun field => field.1 == name) ≤ 1

/-- The fields of a record that is written as an object. -/
def Json.objectFields? (names : List String) (json : Json) : Option Fields := do
  let fields ← json.fields?
  if fields.areSingle names then return fields else none

/-- The fields of a record. An array holds them in the order of `names`, and has at least the
first `least` of them. -/
def Json.recordFields? (names : List String) (least : Nat) : Json → Option Fields
  | .array items =>
      if least ≤ items.length ∧ items.length ≤ names.length then some (names.zip items) else none
  | json => json.objectFields? names

namespace Fields

def find? (fields : Fields) (name : String) : Option Json :=
  (List.find? (fun field => field.1 == name) fields).map (·.2)

def required (fields : Fields) (name : String) (read : Json → Option α) : Option α := do
  read (← fields.find? name)

def withDefault (fields : Fields) (name : String) (default : α) (read : Json → Option α) :
    Option α :=
  match fields.find? name with
  | none => some default
  | some json => read json

/-- A field that may be absent or null. -/
def nullable (fields : Fields) (name : String) (read : Json → Option α) : Option (Option α) :=
  match fields.find? name with
  | none | some .null => some none
  | some json => (read json).map some

end Fields

/-- The tag of a variant and the record of its fields. An array begins with the tag. -/
def Json.variant? (tagName : String) : Json → Option (Json × Json)
  | .array (tag :: items) => some (tag, .array items)
  | json => do return (← (← json.objectFields? [tagName]).find? tagName, json)

/-- How a name of an enumeration may be written besides as a text. -/
inductive NameForm where
  /-- As an object that maps the name to null. -/
  | direct
  /-- As an object that maps the name to null or to an empty object. -/
  | buffered
deriving DecidableEq, Repr

def NameForm.admits : NameForm → Json → Bool
  | _, .null => true
  | .buffered, .object [] => true
  | _, _ => false

/-- The name of an enumeration's member that stands for itself. -/
def Json.name? (form : NameForm) : Json → Option String
  | .string value => value
  | .object [(name, value)] => if form.admits value then name else none
  | _ => none

end TypedIR
