/-!
Contract: tables that are known by their look-ups.

Owns:
- maps from keys to values, whatever order or layout they are kept in;
- insertion, which replaces the value of a key, and removal;
- changes of the value of one key, if there is one, or of all values.

The lemmas say what each operation does to every look-up.
-/

namespace TypedIR

structure Map (κ ν : Type) where
  get? : κ → Option ν

namespace Map

variable {κ ν : Type}

def empty : Map κ ν := ⟨fun _ => none⟩

def mapValues (map : Map κ ν) (change : ν → ν) : Map κ ν := ⟨fun key => (map.get? key).map change⟩

section Keys

variable [DecidableEq κ]

def insert (map : Map κ ν) (key : κ) (value : ν) : Map κ ν :=
  ⟨fun other => if other = key then some value else map.get? other⟩

def erase (map : Map κ ν) (key : κ) : Map κ ν :=
  ⟨fun other => if other = key then none else map.get? other⟩

def modify (map : Map κ ν) (key : κ) (change : ν → ν) : Map κ ν :=
  ⟨fun other => if other = key then (map.get? other).map change else map.get? other⟩

end Keys

@[ext] theorem ext {first second : Map κ ν} (same : ∀ key, first.get? key = second.get? key) :
    first = second := by
  obtain ⟨one⟩ := first
  obtain ⟨two⟩ := second
  exact congrArg mk (funext same)

variable (map : Map κ ν) (key other : κ)

theorem get?_mapValues (change : ν → ν) :
    (map.mapValues change).get? key = (map.get? key).map change := rfl

variable [DecidableEq κ]

theorem get?_insert (value : ν) :
    (map.insert key value).get? other = if other = key then some value else map.get? other := rfl

theorem get?_erase :
    (map.erase key).get? other = if other = key then none else map.get? other := rfl

theorem get?_modify (change : ν → ν) : (map.modify key change).get? other =
    if other = key then (map.get? other).map change else map.get? other := rfl

end Map

end TypedIR
