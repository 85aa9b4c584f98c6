import TypedIR.Flow.Graph

/-!
Contract: the blocks that the entry reaches, in reverse postorder.

Owns:
- the depth-first walk that takes successors in order and lists a block when all
  its successors are done, before the blocks listed so far;
- the bound on its steps: one for each visited block and each of its edges.
-/

namespace TypedIR.Flow

namespace Graph

/-- The walk. The stack holds the open blocks with the successors still to take, `seen` all
blocks that were opened, `finished` the closed ones, last closed first. -/
def walk (graph : Graph) :
    Nat → List (Nat × List Nat) → List Nat → List Nat → List Nat
  | 0, _, _, finished => finished
  | _, [], _, finished => finished
  | budget + 1, (block, []) :: stack, seen, finished =>
      graph.walk budget stack seen (block :: finished)
  | budget + 1, (block, target :: targets) :: stack, seen, finished =>
      if target ∈ seen then graph.walk budget ((block, targets) :: stack) seen finished
      else
        graph.walk budget ((target, graph.successors target) :: (block, targets) :: stack)
          (target :: seen) finished

/-- One step for each edge, and one for each block. -/
def walkSteps (graph : Graph) : Nat :=
  (graph.blocks.flatMap graph.successors).length + graph.blocks.length + 1

def reversePostorder (graph : Graph) : List Nat :=
  if graph.size = 0 then []
  else graph.walk graph.walkSteps [(0, graph.successors 0)] [0] []

example :
    (ofLists #[[2, 1], [3], [3], []]).reversePostorder = [0, 1, 2, 3] := by decide

end Graph

end TypedIR.Flow
