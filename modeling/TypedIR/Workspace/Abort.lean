import TypedIR.Workspace.Action

/-!
Contract: verification that does not return to its caller when it fails.

Owns:
- the notice of an aborted run: what was rejected, and the reasons;
- its text for the error stream and its record in the log;
- verification of a function or a module that ends in a verdict or a notice.

The verdicts are recorded and logged before the run aborts.
-/

namespace TypedIR

/-- What a verification was about. -/
inductive Subject where
  | function (name : String)
  | module (name : String)
deriving DecidableEq, Repr

def Subject.text : Subject → String
  | .function name => "function @" ++ name
  | .module name => "module '" ++ name ++ "'"

structure AbortNotice where
  subject : Subject
  reasons : List String
deriving DecidableEq, Repr

namespace AbortNotice

def text (notice : AbortNotice) : String :=
  "error: verification of " ++ notice.subject.text ++ " failed\n" ++
    String.join (notice.reasons.map fun reason => "  " ++ reason ++ "\n")

def record (notice : AbortNotice) : LogRecord where
  level := .error
  message := "Verification of " ++ notice.subject.text ++ " failed with " ++
    toString notice.reasons.length ++ " error(s), aborting"

end AbortNotice

namespace Action

variable {σ : Type}

/-- A favourable verdict, or the notice that ends the run. -/
def settle (subject : Subject) : Verdict → Action σ (Except AbortNotice Verdict)
  | .valid => return .ok .valid
  | .invalid reasons => do
      let notice := ⟨subject, reasons⟩
      emit [.log notice.record]
      return .error notice

def verifyOrAbort (engine : Engine σ) (function : FunctionId) :
    Action σ (Except AbortNotice Verdict) := do
  let name ← inspect fun store =>
    store.read function.context fun context => context.functionName function
  settle (.function name) (← verify engine function)

def verifyModuleOrAbort (engine : Engine σ) (context : ContextId) :
    Action σ (Except AbortNotice Verdict) := do
  let name ← inspect fun store => store.read context fun home => .ok home.moduleName
  settle (.module name) (← verifyModule engine context)

end Action

end TypedIR
