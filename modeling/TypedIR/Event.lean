import TypedIR.Context.Basic

/-!
Contract: what a run lets an observer see besides its results.

Owns:
- records of a log, from errors down to traces, and filters on them;
- the structures of types that are interned, and the text of one with all its handles;
- the calls that an engine receives;
- all of these as events of one sequence.
-/

namespace TypedIR

inductive LogLevel where
  | error
  | warn
  | info
  | debug
  | trace
deriving DecidableEq, Repr

namespace LogLevel

/-- The higher the rank, the more detailed. -/
def rank : LogLevel → Nat
  | .error => 1
  | .warn => 2
  | .info => 3
  | .debug => 4
  | .trace => 5

def word : LogLevel → String
  | .error => "error"
  | .warn => "warn"
  | .info => "info"
  | .debug => "debug"
  | .trace => "trace"

def all : List LogLevel := [.error, .warn, .info, .debug, .trace]

end LogLevel

structure LogRecord where
  level : LogLevel
  message : String
deriving DecidableEq, Repr

def LogRecord.text (record : LogRecord) : String := record.level.word ++ ": " ++ record.message

/-- The most detailed level that passes; none when nothing does. -/
abbrev LogFilter := Option LogLevel

def LogFilter.admits (filter : LogFilter) (record : LogRecord) : Bool :=
  match filter with
  | some level => record.level.rank ≤ level.rank
  | none => false

/-- A native handle in hexadecimal. -/
def nativeText (handle : NativeHandle) : String := "0x" ++ String.ofList (Nat.toDigits 16 handle)

inductive EngineCall where
  | create (handle : NativeHandle)
  | dispose (handle : NativeHandle)
  | accepts (code : UInt32)
  | verify (function : FunctionId) (name : String)
  | write (context : ContextId)
deriving DecidableEq, Repr

def EngineCall.text : EngineCall → String
  | .create handle => "create " ++ nativeText handle
  | .dispose handle => "dispose " ++ nativeText handle
  | .accepts code => "accepts " ++ toString code.toNat
  | .verify function name => "verify " ++ function.text ++ " '" ++ name ++ "'"
  | .write context => "write " ++ context.text

/-! ### Structures in full -/

def ContextId.fieldsText (id : ContextId) : String :=
  "ContextId \x7b index: " ++ toString id.index ++ ", generation: " ++ toString id.generation ++
    " \x7d"

def TypeId.fieldsText (id : TypeId) : String :=
  "TypeId \x7b context: " ++ id.context.fieldsText ++ ", index: " ++ toString id.index ++ " \x7d"

/-- A structure of the types of a context, field by field. -/
def TypeShape.fieldsText (context : ContextId) : TypeShape → String
  | .void => "Void"
  | .label => "Label"
  | .integer bits => "Integer \x7b bits: " ++ toString bits.toNat ++ " \x7d"
  | .array element length =>
      "Array \x7b element: " ++ one element ++ ", length: " ++ toString length.toNat ++ " \x7d"
  | .struct fields packed =>
      "Struct \x7b fields: " ++ many fields ++ ", packed: " ++ toString packed ++ " \x7d"
  | .function result parameters variadic =>
      "Function \x7b return_type: " ++ one result ++ ", params: " ++ many parameters ++
        ", is_var_arg: " ++ toString variadic ++ " \x7d"
where
  one (type : TypeRef) : String := TypeId.fieldsText ⟨context, type⟩
  many (types : List TypeRef) : String := "[" ++ Text.joined ", " (types.map one) ++ "]"

/-! ### Events -/

inductive Event where
  | log (record : LogRecord)
  /-- A structure is stored as a new type. -/
  | interned (type : TypeId) (shape : TypeShape)
  | engine (call : EngineCall)
deriving DecidableEq, Repr

namespace Event

def debug (message : String) : Event := .log ⟨.debug, message⟩

def trace (message : String) : Event := .log ⟨.trace, message⟩

def record? : Event → Option LogRecord
  | .log record => some record
  | .interned type shape =>
      some ⟨.trace, "Interned " ++ shape.fieldsText type.context ++ " as type#" ++
        toString type.index ++ " in " ++ type.context.text⟩
  | .engine _ => none

def isInterned : Event → Bool
  | .interned _ _ => true
  | .log _ | .engine _ => false

def call? : Event → Option EngineCall
  | .engine call => some call
  | .log _ | .interned _ _ => none

end Event

/-- The records that pass a filter, in order. Those of structures in full are left to the log. -/
def recordsOf (filter : LogFilter) (events : List Event) : List LogRecord :=
  ((events.filter fun event => !event.isInterned).filterMap Event.record?).filter filter.admits

end TypedIR
