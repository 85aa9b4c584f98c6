import TypedIR.Check.Structure
import TypedIR.Engine.Basic
import TypedIR.Print.Module

/-!
Contract: the engine that needs no other program. It numbers its handles, accepts
every code of the native range, judges by the structural check and writes printed
code.

Owns:
- the handles given out and not yet taken back;
- the judgement, whose message holds one error a line, and whose log holds the
  warnings and the summary of the check.
-/

namespace TypedIR

structure ReferenceState where
  /-- The number of the handle given out last. -/
  issued : Nat
  live : List NativeHandle
deriving DecidableEq, Repr

namespace ReferenceState

def start : ReferenceState := ⟨0, []⟩

def create (state : ReferenceState) : NativeHandle × ReferenceState :=
  (state.issued + 1, ⟨state.issued + 1, (state.issued + 1) :: state.live⟩)

/-- Takes a handle back. One that is not live is only complained about. -/
def dispose (handle : NativeHandle) (state : ReferenceState) :
    ReferenceState × List LogRecord :=
  if handle ∈ state.live then ({ state with live := state.live.erase handle }, [])
  else (state, [⟨.warn, "Native handle " ++ nativeText handle ++ " disposed twice"⟩])

end ReferenceState

namespace Store

/-- The report of the structural check. -/
def report (store : Store) (function : FunctionId) : Report :=
  match store.read function.context fun context => do
    let entry ← context.resolveFunction function
    return context.report store.settings.reportUnreachable entry with
  | .ok report => report
  | .error fault => ⟨[⟨.error, fault.message, function.text, []⟩]⟩

def moduleText (store : Store) (context : ContextId) : Except Fault String :=
  store.read context Context.moduleText

end Store

def Judgement.ofReport (function : FunctionId) (report : Report) : Judgement where
  broken := report.hasErrors
  message := Text.joined "\n" (report.errors.map Diagnostic.reason)
  records := report.warnings.map (fun warning => ⟨.warn, warning.reason⟩) ++
    [⟨.trace, "Reference engine checked " ++ function.text ++ ": " ++ report.summary⟩]

namespace Engine

def reference : Engine ReferenceState where
  name := "reference"
  create := ReferenceState.create
  dispose := ReferenceState.dispose
  accepts _ code := code ≤ CallConvention.maxCode
  verify _ store function := .ofReport function (store.report function)
  write _ store context := do
    let text ← store.moduleText context
    return text.toUTF8.toList

end Engine

end TypedIR
