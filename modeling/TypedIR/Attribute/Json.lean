import TypedIR.Attribute.Basic
import TypedIR.Json.Fields

/-!
Contract: attributes and their sites as JSON documents.

Owns:
- sites: a word, or an object with the position of a parameter;
- attributes: a form with the fields of that form, where an absent number is zero
  and an absent value empty; the form is a word, or in a list of placed
  attributes also the form's position, zero or one;
- the document of an attribute, which shows every field.
-/

namespace TypedIR

def AttributeKind.ofJson? (json : Json) : Option AttributeKind := do
  ofTag? (← json.name? .buffered)

/-- A site. The object of a word maps it to null. -/
def Site.ofJson? (json : Json) : Option Site :=
  match json with
  | .object [(some "param", position)] => (position.uint32?).map fun number => .parameter number.toNat
  | _ =>
      match json.name? .direct with
      | some "return" => some .ret
      | some "function" => some .function
      | _ => none

namespace Attribute

/-- The two forms of an attribute. -/
inductive Form where
  | enumerated
  | string
deriving DecidableEq, Repr

def Form.tag : Form → String
  | .enumerated => "enum"
  | .string => "string"

def Form.ofWord? (json : Json) : Option Form :=
  match json.text? with
  | some "enum" => some .enumerated
  | some "string" => some .string
  | _ => none

/-- A form by its word, or by its position among the forms. -/
def Form.ofWordOrPosition? (json : Json) : Option Form :=
  match json.integer? with
  | some 0 => some .enumerated
  | some 1 => some .string
  | _ => ofWord? json

def Form.fieldNames : Form → List String
  | .enumerated => ["kind", "value"]
  | .string => ["key", "value"]

def ofFields? (form : Form) (fields : Fields) : Option Attribute := do
  match form with
  | .enumerated =>
      let kind ← fields.required "kind" AttributeKind.ofJson?
      let number ← fields.withDefault "value" 0 Json.uint64?
      return .enumerated kind number
  | .string =>
      let key ← fields.required "key" Json.text?
      let value ← fields.withDefault "value" "" Json.text?
      return .string key value

def ofJson? (json : Json) : Option Attribute := do
  let (tag, body) ← json.variant? "type"
  let form ← Form.ofWord? tag
  ofFields? form (← body.recordFields? form.fieldNames 1)

def toJson : Attribute → Json
  | .enumerated kind number =>
      .record [("type", .text Form.enumerated.tag), ("kind", .text kind.tag),
        ("value", .natural number.toNat)]
  | .string key value =>
      .record [("type", .text Form.string.tag), ("key", .text key), ("value", .text value)]

end Attribute

end TypedIR
