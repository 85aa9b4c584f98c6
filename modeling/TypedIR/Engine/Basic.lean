import TypedIR.Event
import TypedIR.Store

/-!
Contract: what a store needs of the engine that takes over its modules.

Owns:
- the seam: native handles of contexts, accepted conventions, judgements on
  functions, written modules;
- the verdict that a judgement amounts to, with at least one reason when it is
  not favourable.

An engine answers from its own state, which only creation and disposal change,
and from the store that it is shown.
-/

namespace TypedIR

structure Judgement where
  /-- The function is malformed. -/
  broken : Bool
  /-- One reason a line. -/
  message : String
  /-- What the engine logged meanwhile. -/
  records : List LogRecord
deriving DecidableEq, Repr

structure Engine (σ : Type) where
  name : String
  create : σ → NativeHandle × σ
  dispose : NativeHandle → σ → σ × List LogRecord
  accepts : σ → UInt32 → Bool
  verify : σ → Store → FunctionId → Judgement
  /-- The bytes of a module. -/
  write : σ → Store → ContextId → Except Fault (List UInt8)

/-- The outcome of a verification. -/
inductive Verdict where
  | valid
  | invalid (reasons : List String)
deriving DecidableEq, Repr

namespace Verdict

/-- The reasons are the lines of the message; without any, the rejection itself is the reason. -/
def ofJudgement (engine function : String) (judgement : Judgement) : Verdict :=
  if judgement.broken then
    match Text.lines judgement.message with
    | [] => .invalid ["@" ++ function ++ ": rejected by the " ++ engine ++ " engine"]
    | reasons => .invalid reasons
  else .valid

def isValid : Verdict → Bool
  | .valid => true
  | .invalid _ => false

def reasons : Verdict → List String
  | .valid => []
  | .invalid reasons => reasons

def state : Verdict → VerificationState
  | .valid => .verified
  | .invalid reasons => .invalid reasons

/-- Valid if there is no reason against it. -/
def ofReasons (reasons : List String) : Verdict :=
  if reasons.isEmpty then .valid else .invalid reasons

end Verdict

end TypedIR
