/-!
Contract: the flow between the blocks of one function, blocks being numbers with
the entry block first.

Owns:
- graphs of successor lists, whose edges stay inside the graph;
- predecessors;
- paths, and what lies on every path from the entry.

Does not own: where the edges come from.
-/

namespace TypedIR.Flow

structure Graph where
  size : Nat
  /-- The targets of a block in order; a target may be listed more than once. -/
  successors : Nat → List Nat
  closed : ∀ block, ∀ target ∈ successors block, target < size

namespace Graph

/-- The graph of a list of successors for each block; edges out of the graph are dropped. -/
def ofLists (lists : Array (List Nat)) : Graph where
  size := lists.size
  successors block := (lists[block]?.getD []).filter fun target => target < lists.size
  closed block target member := by simpa using (List.mem_filter.mp member).2

def blocks (graph : Graph) : List Nat := List.range graph.size

/-- The sources of the edges into a block, in order, once for each edge. -/
def predecessors (graph : Graph) (block : Nat) : List Nat :=
  graph.blocks.flatMap fun source =>
    ((graph.successors source).filter fun target => target = block).map fun _ => source

/-- A path visits the blocks of the list, each an edge away from the one before. -/
inductive Path (graph : Graph) : Nat → List Nat → Nat → Prop where
  | single (block : Nat) : Path graph block [block] block
  | cons {source next target : Nat} {visited : List Nat}
      (edge : next ∈ graph.successors source) (rest : Path graph next visited target) :
      Path graph source (source :: visited) target

/-- Some path leads from the first block to the second. -/
def Reaches (graph : Graph) (source target : Nat) : Prop :=
  ∃ visited, graph.Path source visited target

/-- The first block lies on every path from the entry to the second. -/
def Dominates (graph : Graph) (dominator block : Nat) : Prop :=
  ∀ visited, graph.Path 0 visited block → dominator ∈ visited

end Graph

end TypedIR.Flow
