import TypedIR.Fault

/-!
Contract: computations that write into a state as they go.

Owns:
- computations that end in a result or a fault, and leave a state in both cases; what
  was written before a fault stays written;
- reading, refusing and writing.

Nothing here undoes a write, so a computation that changes nothing where it fails owes
that to the order of its steps.
-/

namespace TypedIR

def InPlace (σ α : Type) : Type := σ → Except Fault α × σ

namespace InPlace

variable {σ α β : Type}

def pure (value : α) : InPlace σ α := fun state => (.ok value, state)

def bind (first : InPlace σ α) (next : α → InPlace σ β) : InPlace σ β := fun state =>
  match first state with
  | (.error fault, changed) => (.error fault, changed)
  | (.ok value, changed) => next value changed

instance : Monad (InPlace σ) where
  pure := InPlace.pure
  bind := InPlace.bind

def refuse (fault : Fault) : InPlace σ α := fun state => (.error fault, state)

/-- A look at the state that may fail. -/
def read (query : σ → Except Fault α) : InPlace σ α := fun state => (query state, state)

/-- A look at the state that does not fail. -/
def look (view : σ → α) : InPlace σ α := fun state => (.ok (view state), state)

def write (change : σ → σ) : InPlace σ Unit := fun state => (.ok (), change state)

/-- A write that gives something back. -/
def update (change : σ → α × σ) : InPlace σ α := fun state =>
  (.ok (change state).1, (change state).2)

end InPlace

end TypedIR
