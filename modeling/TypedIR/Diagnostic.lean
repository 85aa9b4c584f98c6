/-!
Contract: findings about code, and reports that collect them in order.

Owns:
- a diagnostic, its one-line reason and its full text with notes;
- a report, whose counts are read off its diagnostics;
- the summary sentence of a report.
-/

namespace TypedIR

inductive Severity where
  | error
  | warning
deriving DecidableEq, Repr

def Severity.text : Severity → String
  | .error => "error"
  | .warning => "warning"

structure Diagnostic where
  severity : Severity
  message : String
  /-- Such as `@f/entry`; empty when the finding has no place. -/
  location : String
  notes : List String
deriving DecidableEq, Repr

namespace Diagnostic

def reason (diagnostic : Diagnostic) : String :=
  if diagnostic.location = "" then diagnostic.message
  else diagnostic.location ++ ": " ++ diagnostic.message

/-- The reason after its severity, then each note on a line of its own. -/
def text (diagnostic : Diagnostic) : String :=
  diagnostic.notes.foldl (fun text note => text ++ "\n  note: " ++ note)
    (diagnostic.severity.text ++ ": " ++ diagnostic.reason)

end Diagnostic

structure Report where
  diagnostics : List Diagnostic
deriving DecidableEq, Repr

namespace Report

def empty : Report := ⟨[]⟩

def push (report : Report) (diagnostic : Diagnostic) : Report :=
  ⟨report.diagnostics ++ [diagnostic]⟩

def errors (report : Report) : List Diagnostic :=
  report.diagnostics.filter fun diagnostic => diagnostic.severity = .error

def warnings (report : Report) : List Diagnostic :=
  report.diagnostics.filter fun diagnostic => diagnostic.severity = .warning

def hasErrors (report : Report) : Bool := !report.errors.isEmpty

def counted (count : Nat) (noun : String) : String :=
  toString count ++ " " ++ noun ++ (if count = 1 then "" else "s")

def summary (report : Report) : String :=
  match report.errors.length, report.warnings.length with
  | 0, 0 => "No errors or warnings"
  | 0, warnings => counted warnings "warning"
  | errors, 0 => counted errors "error"
  | errors, warnings => counted errors "error" ++ " and " ++ counted warnings "warning"

end Report

end TypedIR
