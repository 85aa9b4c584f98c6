import TypedIR.Engine.Reference
import TypedIR.Proofs.Description.Types
import TypedIR.Proofs.Workspace.Constructions
import TypedIR.Proofs.Workspace.Dead

/-!
Contract: type terms in the contexts of a workspace, there and back.

Owns:
- lowering as an action, which is a run of commands;
- that the type of a term keeps its tree as long as the context lives;
- the round trip: the text of a lowered type reads back as the term, and terms lowered
  in one context at any two times are equal exactly if their types are.
-/

namespace TypedIR

open Description Construction

variable {σ : Type} {engine : Engine σ} {initial : σ} {settings : Settings}

/-- A type of the context has the tree as long as the context lives. -/
theorem Store.lasting_tree (settings : Settings) (id : ContextId) (type : TypeRef)
    (tree : TypeTree) :
    Lasting settings fun store => (store.Sound ∧ store.HasIssued id) ∧
      ∀ context, store.context? id = some context →
        context.Regular settings ∧ context.tree? type = some tree :=
  lasting_on id fun _ _ _ _ ⟨regular, known⟩ change =>
    ⟨regular.changes (.single change), regular.tree?_mono (.single change) known⟩

namespace Workspace

variable {workspace : Workspace σ} {id : ContextId}

/-- Lowers a term in a live context. -/
def lower (engine : Engine σ) (id : ContextId) (term : TypeTerm) :
    Action σ (Except BuildFault TypeId) := fun workspace =>
  construct id (lowerType (termsOf engine workspace) term) workspace

/-- A lowering that succeeds is a run of commands, and gives a type of the context with the tree of
the term. -/
theorem Reachable.lower_done (reachable : Reachable engine initial workspace) {term : TypeTerm}
    {type : TypeId} (done : (lower engine id term workspace).result = .ok (.ok type)) :
    (∃ commands, (lower engine id term workspace).workspace =
      workspace.afterAll engine commands) ∧
    ∃ context, (lower engine id term workspace).workspace.store.context? id = some context ∧
      type.context = id ∧ context.tree? type.index = some term.tree := by
  obtain ⟨context, found⟩ := construct_live done
  have sameId := (reachable.coherent found).1
  have regular : context.Regular (termsOf engine workspace).settings := reachable.regular found
  obtain ⟨after, left, steps, came⟩ := construct_cases (lowerType_meets term regular) found
  obtain ⟨commands, reached⟩ := steps.commands found sameId
  refine ⟨⟨commands, left.trans reached.symm⟩, after, ?_, ?_⟩
  · unfold lower
    rw [left]
    exact (Store.context?_put found).trans (if_pos rfl)
  · rcases came with ⟨value, given, _, lowered⟩ | ⟨fault, given, _⟩
    · obtain rfl := Except.ok.inj (Except.ok.inj (given.symm.trans done))
      exact ⟨lowered.tagged.trans sameId, lowered.known⟩
    · cases Except.ok.inj (given.symm.trans done)

/-- The type of a term keeps the tree of the term through any commands. -/
theorem Reachable.tree?_afterAll (reachable : Reachable engine initial workspace)
    {context : Context} (found : workspace.store.context? id = some context) {type : TypeRef}
    {tree : TypeTree} (known : context.tree? type = some tree) (commands : List Command)
    {later : Context} (lives : (workspace.afterAll engine commands).store.context? id = some later) :
    later.tree? type = some tree := by
  have lasting := Store.lasting_tree workspace.store.settings id type tree
  have issued := reachable.sound.hasIssued_of_live found
  refine ((lasting.afterAll ⟨reachable.every, ⟨reachable.sound, issued⟩, ?_⟩ commands).2 later
    lives).2
  intro context' found'
  obtain rfl := Option.some.inj (found.symm.trans found')
  exact ⟨reachable.regular found, known⟩

/-- A term determines its text, and the text the term. -/
theorem tree_injective {first second : TypeTerm} (same : first.tree = second.tree) :
    first = second := by
  have read := first.read_text
  rw [same, second.read_text] at read
  exact (Except.ok.inj read).symm

/-- Arrays of empty structs, which differ only in the packing. -/
def emptyStructs (packed : Bool) : TypeTerm := .array (.struct [] packed) 2

/-- The text of a lowered type reads back as the term. Whatever commands and further lowerings come
in between, a term lowered later in the same context gets the same type exactly if it is the same
term. -/
theorem lowering_round_trip (reachable : Reachable engine initial workspace) {first : TypeTerm}
    {one : TypeId} (lowered : (lower engine id first workspace).result = .ok (.ok one)) :
    let after := (lower engine id first workspace).workspace
    (∃ commands, after = workspace.afterAll engine commands) ∧
      (∃ text, (Query.typeText one).answer after.store = .ok (.text text) ∧
        TypeTerm.read text = .ok first) ∧
      ∀ commands second two,
        (lower engine id second (after.afterAll engine commands)).result = .ok (.ok two) →
          (one = two ↔ first = second) := by
  obtain ⟨⟨commands, reached⟩, context, found, home, known⟩ := reachable.lower_done lowered
  have later : Reachable engine initial (lower engine id first workspace).workspace := by
    rw [reached]
    exact reachable.after_commands commands
  obtain ⟨sameId, coherent⟩ := later.coherent found
  obtain ⟨shape, stored, _⟩ := coherent.grounded.shape_of_tree known
  have issued : context.Issued (.type one) :=
    ⟨home.trans sameId.symm, Context.lt_size_of_shape? stored⟩
  refine ⟨⟨commands, reached⟩, ?_, ?_⟩
  · obtain ⟨tree, expanded, answered⟩ := later.typeText found issued
    obtain rfl := Option.some.inj (expanded.symm.trans known)
    exact ⟨_, answered, first.read_text⟩
  · intro commands second two loweredLater
    have last := later.after_commands commands
    obtain ⟨⟨more, reachedLast⟩, final, lives, homeLater, knownLater⟩ :=
      last.lower_done loweredLater
    have kept : final.tree? one.index = some first.tree := by
      apply later.tree?_afterAll found known (commands ++ more)
      rwa [afterAll_append, ← reachedLast]
    have reachableLast := last.after_commands more
    rw [← reachedLast] at reachableLast
    have regular := reachableLast.regular lives
    constructor
    · rintro rfl
      exact tree_injective (Option.some.inj (kept.symm.trans knownLater))
    · rintro rfl
      have same := regular.canonical.tree?_injective regular.coherent.grounded kept knownLater
      exact congrArg₂ TypeId.mk (home.trans homeLater.symm) same

/-- With another type in between, the two terms get two types. -/
theorem emptyStructs_round_trip :
    let workspace := afterAll Engine.reference (start .standard .start) [.createContext "types"]
    let after := (lower Engine.reference ⟨0, 0⟩ (emptyStructs true) workspace).workspace
    let later := after.afterAll Engine.reference [.edit (.integerType ⟨0, 0⟩ 8)]
    (∃ text, (Query.typeText ⟨⟨0, 0⟩, 1⟩).answer after.store = .ok (.text text) ∧
      TypeTerm.read text = .ok (emptyStructs true)) ∧
    ∃ two, (lower Engine.reference ⟨0, 0⟩ (emptyStructs false) later).result = .ok (.ok two) ∧
      ((⟨⟨0, 0⟩, 1⟩ : TypeId) = two ↔ emptyStructs true = emptyStructs false) := by
  have lowered : (lower Engine.reference ⟨0, 0⟩ (emptyStructs true)
      (afterAll Engine.reference (start .standard .start) [.createContext "types"])).result =
        .ok (.ok ⟨⟨0, 0⟩, 1⟩) := by
    decide +kernel
  have reachable : Reachable Engine.reference .start
      (afterAll Engine.reference (start .standard .start) [.createContext "types"]) :=
    ⟨.standard, [.createContext "types"], rfl⟩
  obtain ⟨_, read, apart⟩ := lowering_round_trip reachable lowered
  refine ⟨read, ⟨⟨0, 0⟩, 4⟩, ?_, ?_⟩
  · decide +kernel
  · exact apart [.edit (.integerType ⟨0, 0⟩ 8)] (emptyStructs false) ⟨⟨0, 0⟩, 4⟩ (by decide +kernel)

end Workspace

end TypedIR
