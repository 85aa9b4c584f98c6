/-!
Contract: texts made of parts, and texts cut into lines.

Owns:
- `joined`, parts with a separator between neighbours;
- `lines`, the lines of a text: each ends at a line feed, a carriage return
  right before that line feed belongs to the line end, and an empty rest after
  the last line feed is no line.
-/

namespace TypedIR.Text

def joined (separator : String) : List String → String
  | [] => ""
  | first :: rest => rest.foldl (fun text part => text ++ separator ++ part) first

/-- Drops a carriage return at the head of a line held in reverse. -/
def dropReturn : List Char → List Char
  | '\r' :: rest => rest
  | line => line

/-- Cuts characters into lines; `current` is the unfinished line in reverse. -/
def cutLines (current : List Char) : List Char → List (List Char)
  | [] => if current.isEmpty then [] else [current.reverse]
  | '\n' :: rest => (dropReturn current).reverse :: cutLines [] rest
  | character :: rest => cutLines (character :: current) rest

def lines (text : String) : List String :=
  (cutLines [] text.toList).map String.ofList

example : joined ", " ["a", "b", "c"] = "a, b, c" := by decide
example : lines "a\n\nb\r\nc\r" = ["a", "", "b", "c\r"] := by decide
example : lines "" = [] ∧ lines "\n" = [""] := by decide

end TypedIR.Text
