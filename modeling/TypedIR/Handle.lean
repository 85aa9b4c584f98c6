/-!
Contract: the names by which a client refers to contexts and to what they own.

Owns:
- context identities, a slot together with the generation that occupied it;
- handles of types, values, functions and blocks, each tagged with its context;
- their text in messages.

Does not own: liveness, which only a store can decide.
-/

namespace TypedIR

structure ContextId where
  index : Nat
  generation : Nat
deriving DecidableEq, Repr

structure TypeId where
  context : ContextId
  index : Nat
deriving DecidableEq, Repr

structure ValueId where
  context : ContextId
  index : Nat
deriving DecidableEq, Repr

/-- A value known to be a function; its index is that of the value. -/
structure FunctionId where
  context : ContextId
  index : Nat
deriving DecidableEq, Repr

structure BlockId where
  context : ContextId
  index : Nat
deriving DecidableEq, Repr

def FunctionId.toValue (function : FunctionId) : ValueId :=
  ⟨function.context, function.index⟩

inductive Handle where
  | context (id : ContextId)
  | type (id : TypeId)
  | value (id : ValueId)
  | function (id : FunctionId)
  | block (id : BlockId)
deriving DecidableEq, Repr

namespace Handle

/-- The context that issued the handle, whether or not it is still live. -/
def tag : Handle → ContextId
  | .context id => id
  | .type id => id.context
  | .value id => id.context
  | .function id => id.context
  | .block id => id.context

end Handle

def ContextId.text (id : ContextId) : String :=
  "context#" ++ toString id.index ++ "." ++ toString id.generation

/-- The text of an entry: its kind, its index and the context that owns it. -/
def entryText (kind : String) (index : Nat) (context : ContextId) : String :=
  kind ++ "#" ++ toString index ++ " in " ++ context.text

def TypeId.text (id : TypeId) : String := entryText "type" id.index id.context

def ValueId.text (id : ValueId) : String := entryText "value" id.index id.context

def FunctionId.text (id : FunctionId) : String := entryText "function" id.index id.context

def BlockId.text (id : BlockId) : String := entryText "block" id.index id.context

def Handle.text : Handle → String
  | .context id => id.text
  | .type id => id.text
  | .value id => id.text
  | .function id => id.text
  | .block id => id.text

end TypedIR
