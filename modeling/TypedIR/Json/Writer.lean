import TypedIR.Json.Basic
import TypedIR.Text.Lines

/-!
Contract: JSON documents as text.

Owns:
- quoting: the short escapes where JSON has them, `\u00xx` in lower case for the
  other control characters, every other character as it is;
- the one-line form, without blanks;
- the indented form: two blanks for each level, one item or field a line, empty
  arrays and objects closed at once.

A string that is not text is written as the empty string, and a number that is
no integer as zero; no document built by this library holds either.
-/

namespace TypedIR

namespace Json

def lowerHexDigit (digit : Nat) : Char :=
  if digit < 10 then Char.ofNat (48 + digit) else Char.ofNat (87 + digit)

def escape (character : Char) : List Char :=
  if character = '"' then ['\\', '"']
  else if character = '\\' then ['\\', '\\']
  else if character = '\n' then ['\\', 'n']
  else if character = '\r' then ['\\', 'r']
  else if character = '\t' then ['\\', 't']
  else if character = '\x08' then ['\\', 'b']
  else if character = '\x0C' then ['\\', 'f']
  else if character.toNat < 0x20 then
    ['\\', 'u', '0', '0', lowerHexDigit (character.toNat / 16), lowerHexDigit (character.toNat % 16)]
  else [character]

def quote (text : String) : String :=
  String.ofList ('"' :: text.toList.flatMap escape ++ ['"'])

def quoteText (text : JsonText) : String := quote (text.getD "")

def numberText : JsonNumber → String
  | .integer value => toString value
  | .real _ => "0"

mutual

def compact : Json → String
  | .null => "null"
  | .bool value => if value then "true" else "false"
  | .number value => numberText value
  | .string value => quoteText value
  | .array items => "[" ++ Text.joined "," (compactItems items) ++ "]"
  | .object fields => "\x7b" ++ Text.joined "," (compactFields fields) ++ "\x7d"

def compactItems : List Json → List String
  | [] => []
  | item :: items => item.compact :: compactItems items

def compactFields : List (JsonText × Json) → List String
  | [] => []
  | (name, value) :: fields => (quoteText name ++ ":" ++ value.compact) :: compactFields fields

end

def lineBreak (level : Nat) : String :=
  String.ofList ('\n' :: List.replicate (2 * level) ' ')

/-- Parts on lines of their own between two brackets, or the bare brackets. -/
def bracketed (left right : String) (level : Nat) (parts : List String) : String :=
  if parts.isEmpty then left ++ right
  else left ++ lineBreak (level + 1) ++ Text.joined ("," ++ lineBreak (level + 1)) parts ++
    lineBreak level ++ right

mutual

def indentedAt (level : Nat) : Json → String
  | .null => "null"
  | .bool value => if value then "true" else "false"
  | .number value => numberText value
  | .string value => quoteText value
  | .array items => bracketed "[" "]" level (indentedItems (level + 1) items)
  | .object fields => bracketed "\x7b" "\x7d" level (indentedFields (level + 1) fields)

def indentedItems (level : Nat) : List Json → List String
  | [] => []
  | item :: items => indentedAt level item :: indentedItems level items

def indentedFields (level : Nat) : List (JsonText × Json) → List String
  | [] => []
  | (name, value) :: fields =>
      (quoteText name ++ ": " ++ indentedAt level value) :: indentedFields level fields

end

def indented (json : Json) : String := indentedAt 0 json

end Json

end TypedIR
