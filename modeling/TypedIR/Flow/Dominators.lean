import TypedIR.Flow.Order

/-!
Contract: immediate dominators, by iteration over the reverse postorder.

Owns:
- tables of parents, where the entry is its own parent and a block without a
  parent is not reached;
- the nearest common ancestor of two blocks, found by climbing from the one that
  stands later in the order;
- sweeps over the order until nothing changes;
- the test whether a block is an ancestor of another.

Each climb lowers a rank and each sweep but the last one lowers the rank of a
parent, so the budgets, taken from ranks and from the size, suffice.
-/

namespace TypedIR.Flow

/-- The parent of each block in the tree of dominators, as far as it is known. -/
abbrev Parents := Array (Option Nat)

namespace Parents

def parent? (parents : Parents) (block : Nat) : Option Nat := parents[block]?.join

/-- The parent, or the entry for a block that has none. -/
def parent (parents : Parents) (block : Nat) : Nat := (parents.parent? block).getD 0

/-- Climbs from the block of greater rank until both meet. -/
def meetWithin (parents : Parents) (rank : Nat → Nat) : Nat → Nat → Nat → Nat
  | 0, left, _ => left
  | budget + 1, left, right =>
      if rank right < rank left then
        parents.meetWithin rank budget (parents.parent left) right
      else if rank left < rank right then
        parents.meetWithin rank budget left (parents.parent right)
      else left

def meet (parents : Parents) (rank : Nat → Nat) (left right : Nat) : Nat :=
  parents.meetWithin rank (rank left + rank right + 1) left right

/-- The block is met on the way from `current` up to the entry. -/
def climbsTo (parents : Parents) (block : Nat) : Nat → Nat → Bool
  | 0, current => current == block
  | budget + 1, current =>
      if current = block then true
      else
        match parents.parent? current with
        | some parent => if parent = current then false else parents.climbsTo block budget parent
        | none => false

/-- The first block is an ancestor of the second, or the same. -/
def dominates (parents : Parents) (dominator block : Nat) : Bool :=
  parents.climbsTo dominator parents.size block

end Parents

namespace Graph

/-- The parent that the known predecessors of a block agree on. -/
def agreedParent (graph : Graph) (rank : Nat → Nat) (parents : Parents) (block : Nat) :
    Option Nat :=
  ((graph.predecessors block).filter fun source => (parents.parent? source).isSome).foldl
    (fun agreed source =>
      match agreed with
      | none => some source
      | some current => some (parents.meet rank source current))
    none

def refine (graph : Graph) (rank : Nat → Nat) (parents : Parents) (block : Nat) : Parents :=
  match graph.agreedParent rank parents block with
  | none => parents
  | some parent => parents.setIfInBounds block (some parent)

/-- Refines the parents of all blocks but the entry, in order. -/
def sweep (graph : Graph) (order : List Nat) (rank : Nat → Nat) (parents : Parents) : Parents :=
  order.tail.foldl (graph.refine rank) parents

def settle (graph : Graph) (order : List Nat) (rank : Nat → Nat) : Nat → Parents → Parents
  | 0, parents => parents
  | budget + 1, parents =>
      let next := graph.sweep order rank parents
      if next = parents then parents else graph.settle order rank budget next

/-- Only the entry has a parent, itself. -/
def rootedAtEntry (graph : Graph) : Parents :=
  (Array.replicate graph.size none).setIfInBounds 0 (some 0)

def dominators (graph : Graph) : Parents :=
  let order := graph.reversePostorder
  graph.settle order (fun block => order.idxOf block) (graph.size * graph.size + 2)
    graph.rootedAtEntry

example :
    (ofLists #[[2, 1], [3], [3], [], [3]]).dominators =
      #[some 0, some 0, some 0, some 0, none] := by decide

end Graph

end TypedIR.Flow
