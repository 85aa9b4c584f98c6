import TypedIR.Flow.Graph

/-!
Contract: paths through a graph of blocks.

Owns:
- both ends of a path, and paths that are put together or cut;
- the last edge of a path;
- shortening: a path that visits no block twice, and one that meets its target
  only at the end;
- reachability as a relation, and what dominance keeps along an edge.
-/

namespace TypedIR.Flow.Graph

variable {graph : Graph} {source middle target block : Nat} {visited front back : List Nat}

namespace Path

theorem source_mem (path : graph.Path source visited target) : source ∈ visited := by
  cases path <;> simp

theorem target_mem (path : graph.Path source visited target) : target ∈ visited := by
  induction path with
  | single => simp
  | cons edge rest inductionHypothesis => exact List.mem_cons_of_mem _ inductionHypothesis

theorem snoc {next : Nat} (path : graph.Path source visited target)
    (edge : next ∈ graph.successors target) :
    graph.Path source (visited ++ [next]) next := by
  induction path with
  | single block => exact .cons edge (.single next)
  | cons first rest inductionHypothesis => exact .cons first (inductionHypothesis edge)

/-- Two paths that meet; the meeting point is listed once. -/
theorem append (first : graph.Path source front middle) (second : graph.Path middle back target) :
    graph.Path source (front ++ back.tail) target := by
  induction first with
  | single block =>
      cases second with
      | single => exact .single _
      | cons edge rest => exact .cons edge rest
  | cons edge rest inductionHypothesis => exact .cons edge (inductionHypothesis second)

/-- The last edge of a path, unless it stays where it is. -/
theorem last_edge (path : graph.Path source visited target) :
    (source = target ∧ visited = [target]) ∨
      ∃ front previous, graph.Path source front previous ∧
        target ∈ graph.successors previous ∧ visited = front ++ [target] := by
  induction path with
  | single block => exact .inl ⟨rfl, rfl⟩
  | @cons source next target visited edge rest inductionHypothesis =>
      right
      rcases inductionHypothesis with ⟨rfl, rfl⟩ | ⟨front, previous, earlier, last, rfl⟩
      · exact ⟨[source], source, .single source, edge, rfl⟩
      · exact ⟨source :: front, previous, .cons edge earlier, last, rfl⟩

theorem eq_snoc (path : graph.Path source visited target) :
    ∃ earlier, visited = earlier ++ [target] := by
  rcases path.last_edge with ⟨_, rfl⟩ | ⟨front, _, _, _, rfl⟩
  · exact ⟨[], rfl⟩
  · exact ⟨front, rfl⟩

/-- The part of a path up to a block that it visits. -/
theorem prefix_to (path : graph.Path source visited target) (member : block ∈ visited) :
    ∃ front back, visited = front ++ back ∧ graph.Path source front block := by
  induction path with
  | single only =>
      obtain rfl : block = only := by simpa using member
      exact ⟨[block], [], rfl, .single block⟩
  | @cons source next target visited edge rest inductionHypothesis =>
      rcases List.mem_cons.mp member with rfl | later
      · exact ⟨[block], visited, rfl, .single block⟩
      · obtain ⟨front, back, rfl, earlier⟩ := inductionHypothesis later
        exact ⟨source :: front, back, rfl, .cons edge earlier⟩

/-- The part of a path from a block that it visits. -/
theorem suffix_from (path : graph.Path source visited target) (member : block ∈ visited) :
    ∃ front back, visited = front ++ back ∧ graph.Path block back target := by
  induction path with
  | single only =>
      obtain rfl : block = only := by simpa using member
      exact ⟨[], [block], rfl, .single block⟩
  | @cons source next target visited edge rest inductionHypothesis =>
      rcases List.mem_cons.mp member with rfl | later
      · exact ⟨[], block :: visited, rfl, .cons edge rest⟩
      · obtain ⟨front, back, rfl, tail⟩ := inductionHypothesis later
        exact ⟨source :: front, back, rfl, tail⟩

/-- Without its loops, a path visits some of the same blocks, each once. -/
theorem without_loops (path : graph.Path source visited target) :
    ∃ short, graph.Path source short target ∧ short.Nodup ∧ ∀ block ∈ short, block ∈ visited := by
  induction path with
  | single block => exact ⟨[block], .single block, by simp, by simp⟩
  | @cons source next target visited edge rest inductionHypothesis =>
      obtain ⟨short, path, nodup, inside⟩ := inductionHypothesis
      by_cases again : source ∈ short
      · obtain ⟨front, back, rfl, tail⟩ := path.suffix_from again
        refine ⟨back, tail, (List.nodup_append.mp nodup).2.1, fun block member => ?_⟩
        exact List.mem_cons_of_mem _ (inside block (List.mem_append_right _ member))
      · refine ⟨source :: short, .cons edge path, List.nodup_cons.mpr ⟨again, nodup⟩, ?_⟩
        intro block member
        rcases List.mem_cons.mp member with rfl | later
        · exact List.mem_cons_self
        · exact List.mem_cons_of_mem _ (inside block later)

/-- Cut at the first visit of its target, a path meets the target only at the end. -/
theorem to_first_visit (path : graph.Path source visited target) :
    ∃ front, graph.Path source (front ++ [target]) target ∧ target ∉ front ∧
      ∀ block ∈ front, block ∈ visited := by
  induction path with
  | single block => exact ⟨[], .single block, by simp, by simp⟩
  | @cons source next target visited edge rest inductionHypothesis =>
      by_cases arrived : source = target
      · subst arrived
        exact ⟨[], .single source, by simp, by simp⟩
      · obtain ⟨front, path, avoids, inside⟩ := inductionHypothesis
        refine ⟨source :: front, .cons edge path, ?_, ?_⟩
        · simp only [List.mem_cons, not_or]
          exact ⟨fun same => arrived same.symm, avoids⟩
        · intro block member
          rcases List.mem_cons.mp member with rfl | later
          · exact List.mem_cons_self
          · exact List.mem_cons_of_mem _ (inside block later)

/-- A path that starts inside the graph stays there. -/
theorem inside (path : graph.Path source visited target) (start : source < graph.size) :
    ∀ block ∈ visited, block < graph.size := by
  induction path with
  | single only => simpa using start
  | @cons source next target visited edge rest inductionHypothesis =>
      intro block member
      rcases List.mem_cons.mp member with rfl | later
      · exact start
      · exact inductionHypothesis (graph.closed _ _ edge) block later

end Path

/-! ### Reachability -/

theorem Reaches.refl (block : Nat) : graph.Reaches block block := ⟨[block], .single block⟩

theorem Reaches.step (reached : graph.Reaches source middle)
    (edge : target ∈ graph.successors middle) : graph.Reaches source target := by
  obtain ⟨visited, path⟩ := reached
  exact ⟨_, path.snoc edge⟩

theorem Reaches.inside (reached : graph.Reaches source target) (start : source < graph.size) :
    target < graph.size := by
  obtain ⟨visited, path⟩ := reached
  exact path.inside start _ path.target_mem

/-! ### Dominance -/

/-- What dominates a block, and is not the block itself, dominates each predecessor. -/
theorem Dominates.predecessor {dominator previous : Nat}
    (dominates : graph.Dominates dominator block)
    (different : dominator ≠ block) (edge : block ∈ graph.successors previous) :
    graph.Dominates dominator previous := by
  intro visited path
  rcases List.mem_append.mp (dominates _ (path.snoc edge)) with earlier | last
  · exact earlier
  · exact absurd (List.mem_singleton.mp last) different

end TypedIR.Flow.Graph
