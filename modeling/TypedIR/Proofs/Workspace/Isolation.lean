import TypedIR.Proofs.Workspace.Locality
import TypedIR.Proofs.Workspace.Reachable

/-!
Contract: what happens in one context does not show in another one.

Owns:
- requests about different contexts, which commute;
- runs of such requests in any order, of which each context sees its own requests alone;
- requests with handles of different contexts, which are refused and change nothing.
-/

namespace TypedIR

variable {σ α β : Type} {engine : Engine σ} {left right : ContextId} {context : Context}

namespace Store

variable {store : Store}

/-- Two live contexts are in different slots, even if they are of one generation. -/
theorem index_ne {one two : Context} (first : store.context? left = some one)
    (second : store.context? right = some two) (apart : left ≠ right) :
    left.index ≠ right.index := by
  intro same
  obtain ⟨slot, lookup, generation, _⟩ := context?_eq_some.mp first
  obtain ⟨other, otherLookup, otherGeneration, _⟩ := context?_eq_some.mp second
  rw [same, otherLookup] at lookup
  obtain rfl := Option.some.inj lookup
  apply apart
  cases left
  cases right
  simp_all

theorem put_comm {first second : Nat} (apart : first ≠ second) (one two : Context) :
    (store.put first one).put second two = (store.put second two).put first one := by
  have slots : ((store.put first one).put second two).slots =
      ((store.put second two).put first one).slots := by
    apply Array.ext_getElem?
    intro index
    simp only [put, Array.getElem?_modify]
    by_cases here : first = index
    · have elsewhere : second ≠ index := fun equal => apart (here.trans equal.symm)
      simp only [if_pos here, if_neg elsewhere]
    · simp only [if_neg here]
  exact congrArg (fun slots => (⟨store.settings, slots, store.free⟩ : Store)) slots

end Store

/-! ### Two requests -/

/-- Actions on different contexts come to the same in either order. -/
theorem Action.Local.commute {one : Action σ α} {two : Action σ β} (oneLocal : Local left one)
    (twoLocal : Local right two) {workspace : Workspace σ} {first second : Context}
    (agree : workspace.Agree left first workspace) (other : workspace.Agree right second workspace)
    (apart : left ≠ right) :
    (one (two workspace).workspace).result = (one workspace).result ∧
      (two (one workspace).workspace).result = (two workspace).result ∧
      (two (one workspace).workspace).workspace = (one (two workspace).workspace).workspace := by
  obtain ⟨_, oneChanged, _, _, oneFirst, _⟩ := oneLocal _ _ _ agree
  obtain ⟨_, twoChanged, _, _, twoFirst, _⟩ := twoLocal _ _ _ other
  have unseen : (workspace.put right twoChanged).Agree left first workspace :=
    agree.put_other other.here apart
  have otherUnseen : (workspace.put left oneChanged).Agree right second workspace :=
    other.put_other agree.here apart.symm
  obtain ⟨oneResult, oneLast, oneEvents, _, oneAfter, oneAlone⟩ := oneLocal _ _ _ unseen
  obtain ⟨twoResult, twoLast, twoEvents, _, twoAfter, twoAlone⟩ := twoLocal _ _ _ otherUnseen
  have oneSame : workspace.put left oneChanged = workspace.put left oneLast := by
    rw [oneAlone] at oneFirst
    exact (congrArg Outcome.workspace oneFirst).symm
  have twoSame : workspace.put right twoChanged = workspace.put right twoLast := by
    rw [twoAlone] at twoFirst
    exact (congrArg Outcome.workspace twoFirst).symm
  rw [oneSame] at twoAfter
  rw [twoSame] at oneAfter
  rw [oneAlone, twoAlone]
  dsimp only
  rw [oneAfter, twoAfter]
  refine ⟨rfl, rfl, ?_⟩
  have index := Store.index_ne agree.here other.here apart
  exact congrArg (fun store => (⟨store, workspace.native⟩ : Workspace σ))
    (Store.put_comm index _ _)

/-! ### Runs -/

namespace Workspace

/-- What a sequence of requests leaves behind. -/
def serve (engine : Engine σ) (workspace : Workspace σ) (requests : List Request) : Workspace σ :=
  workspace.follow (requests.map fun request => (engine, request))

/-- The requests of a sequence, each with its result. -/
def responses (engine : Engine σ) (workspace : Workspace σ) :
    List Request → List (Request × Except Fault Response)
  | [] => []
  | request :: rest =>
      (request, (request.run engine workspace).result) ::
        responses engine (request.run engine workspace).workspace rest

theorem serve_cons (workspace : Workspace σ) (request : Request) (rest : List Request) :
    workspace.serve engine (request :: rest) =
      (request.run engine workspace).workspace.serve engine rest := rfl

theorem responses_cons (workspace : Workspace σ) (request : Request) (rest : List Request) :
    workspace.responses engine (request :: rest) =
      (request, (request.run engine workspace).result) ::
        (request.run engine workspace).workspace.responses engine rest := rfl

/-- Requests of one context in between do not show in another one: it gives the same results and
ends up the same as if they were left out. The two workspaces agree on that context at every step
that is not left out. -/
theorem Agree.serve (isLocal : engine.IsLocal) (apart : left ≠ right) {mixed : List Request}
    (each : ∀ request ∈ mixed, request.isWithin left = true ∨ request.isWithin right = true)
    {first second : Workspace σ} {other : Context} (agree : Agree right context first second)
    (beside : Agree left other first first) :
    (first.responses engine mixed).filter (fun response => response.1.isWithin right) =
        second.responses engine (mixed.filter (Request.isWithin right)) ∧
      ∃ changed, Agree right changed (first.serve engine mixed)
        (second.serve engine (mixed.filter (Request.isWithin right))) := by
  induction mixed generalizing first second context other with
  | nil => exact ⟨rfl, context, agree⟩
  | cons request rest inductionHypothesis =>
      have later := fun request listed => each request (List.mem_cons_of_mem _ listed)
      by_cases within : request.isWithin right = true
      · obtain ⟨result, changed, events, self, here, there⟩ :=
          Request.local_run isLocal within _ _ _ agree
        have besideLater : Agree left other (first.put right changed) (first.put right changed) :=
          agree_refl (beside.put_other agree.here apart).here beside.self
        obtain ⟨same, last⟩ := inductionHypothesis later (agree.put self) besideLater
        rw [List.filter_cons_of_pos within, responses_cons, responses_cons, serve_cons, serve_cons,
          here, there]
        dsimp only
        rw [List.filter_cons, if_pos within, same]
        exact ⟨rfl, last⟩
      · have elsewhere := (each request List.mem_cons_self).resolve_right within
        obtain ⟨result, changed, events, self, here, _⟩ :=
          Request.local_run isLocal elsewhere _ _ _ beside
        have unseen : Agree right context (first.put left changed) second :=
          agree.put_other beside.here apart.symm
        obtain ⟨same, last⟩ := inductionHypothesis later unseen (beside.put self)
        rw [List.filter_cons_of_neg within, responses_cons, serve_cons, here]
        dsimp only
        rw [List.filter_cons, if_neg within]
        exact ⟨same, last⟩

/-! ### Mixed handles -/

/-- A request with handles of two contexts is refused and changes nothing. -/
theorem Reachable.refused_of_mixed {initial : σ} {workspace : Workspace σ}
    (reachable : Reachable engine initial workspace) {request : Request} {one two : Handle}
    (first : one ∈ request.handles) (second : two ∈ request.handles) (apart : one.tag ≠ two.tag) :
    (∃ fault, (request.run engine workspace).result = .error fault) ∧
      (request.run engine workspace).workspace = workspace := by
  have single : ∀ handle, request.handles ≠ [handle] := by
    intro handle alone
    rw [alone, List.mem_singleton] at first second
    exact apart (congrArg Handle.tag (first.trans second.symm))
  cases request with
  | command command =>
      cases command with
      | createContext name => cases first
      | edit change =>
          have unchanged : (Request.run engine (.command (.edit change)) workspace).workspace =
              workspace.after engine (.edit change) := Request.workspace_run _ _
          rw [unchanged]
          rcases Action.perform_cases (change.operation workspace.store.settings) workspace
            with ⟨fault, refused, same⟩ | ⟨_, answer, _, _, _, done, _⟩
          · exact ⟨⟨fault, (Action.bind_of_error refused).1⟩, same⟩
          · have tags := reachable.edit_tags done
            exact absurd ((tags one first).trans (tags two second).symm) apart
      | _ => exact absurd rfl (single _)
  | _ => exact absurd rfl (single _)

/-! ### Isolation -/

/-- Neither of two contexts sees what happens in the other one. -/
structure Isolates (engine : Engine σ) (workspace : Workspace σ) (left right : ContextId) :
    Prop where
  commutes : ∀ first second : Request, first.isWithin left = true → second.isWithin right = true →
    (first.run engine (second.run engine workspace).workspace).result =
        (first.run engine workspace).result ∧
      (second.run engine (first.run engine workspace).workspace).result =
        (second.run engine workspace).result ∧
      (second.run engine (first.run engine workspace).workspace).workspace =
        (first.run engine (second.run engine workspace).workspace).workspace
  /-- Of requests about both in any order, the second context sees its own ones alone. -/
  responses : ∀ mixed : List Request,
    (∀ request ∈ mixed, request.isWithin left = true ∨ request.isWithin right = true) →
    (workspace.responses engine mixed).filter (fun response => response.1.isWithin right) =
      workspace.responses engine (mixed.filter (Request.isWithin right))
  context : ∀ mixed : List Request,
    (∀ request ∈ mixed, request.isWithin left = true ∨ request.isWithin right = true) →
    (workspace.serve engine mixed).store.context? right =
      (workspace.serve engine (mixed.filter (Request.isWithin right))).store.context? right
  /-- The printed module, the records and all other answers about the context. -/
  answers : ∀ mixed : List Request,
    (∀ request ∈ mixed, request.isWithin left = true ∨ request.isWithin right = true) →
    ∀ query : Query, query.home = right →
      query.answer (workspace.serve engine mixed).store =
        query.answer (workspace.serve engine (mixed.filter (Request.isWithin right))).store
  refuses : ∀ request : Request, (∃ one ∈ request.handles, one.tag = left) →
    (∃ two ∈ request.handles, two.tag = right) →
    (∃ fault, (request.run engine workspace).result = .error fault) ∧
      (request.run engine workspace).workspace = workspace

theorem contexts_isolated {initial : ReferenceState} {workspace : Workspace ReferenceState}
    (reachable : Reachable Engine.reference initial workspace) {first second : Context}
    (here : workspace.store.context? left = some first)
    (there : workspace.store.context? right = some second) (apart : left ≠ right) :
    Isolates Engine.reference workspace left right := by
  have isLocal := Engine.reference_isLocal
  have agree := agree_refl here (reachable.coherent here).1
  have other := agree_refl there (reachable.coherent there).1
  refine ⟨?_, ?_, ?_, ?_, ?_⟩
  · intro one two oneWithin twoWithin
    exact (Request.local_run isLocal oneWithin).commute (Request.local_run isLocal twoWithin)
      agree other apart
  · intro mixed each
    exact (other.serve isLocal apart each agree).1
  · intro mixed each
    obtain ⟨_, changed, last⟩ := other.serve isLocal apart each agree
    exact last.here.trans last.there.symm
  · rintro mixed each query rfl
    obtain ⟨_, changed, last⟩ := other.serve isLocal apart each agree
    exact last.read_eq _
  · rintro request ⟨one, oneGiven, rfl⟩ ⟨two, twoGiven, rfl⟩
    exact reachable.refused_of_mixed oneGiven twoGiven apart

/-- Two contexts with one function each, whose entries have the same numbers. -/
def pairRun : List Command :=
  let declared (context : ContextId) (name : String) : List Command :=
    [.edit (.integerType context 32),
      .edit (.signatureType ⟨context, 0⟩ [⟨context, 0⟩] false),
      .edit (.declare context name ⟨context, 1⟩)]
  [.createContext "left", .createContext "right"] ++ declared ⟨0, 0⟩ "f" ++ declared ⟨1, 0⟩ "g"

/-- Requests about both contexts of the pair in turns. -/
def pairRequests : List Request :=
  [.command (.edit (.appendBlock ⟨⟨0, 0⟩, 0⟩ "start")),
    .command (.edit (.appendBlock ⟨⟨1, 0⟩, 0⟩ "entry")),
    .command (.edit (.ret ⟨⟨0, 0⟩, 0⟩ none)),
    .command (.edit (.ret ⟨⟨1, 0⟩, 0⟩ (some ⟨⟨1, 0⟩, 1⟩))),
    .command (.verifyModule ⟨0, 0⟩),
    .command (.verifyModule ⟨1, 0⟩)]

/-- In the left one of the contexts the return is refused, and the function is left without a
terminator. The right one is valid all the same. -/
theorem pairRun_isolated :
    Isolates Engine.reference (afterAll Engine.reference (start .standard .start) pairRun) ⟨0, 0⟩
        ⟨1, 0⟩ ∧
      (((afterAll Engine.reference (start .standard .start) pairRun).responses Engine.reference
          pairRequests).filter fun response => response.1.isWithin ⟨1, 0⟩).map Prod.snd =
        [.ok (.answer (.handle (.block ⟨⟨1, 0⟩, 0⟩))), .ok (.answer (.handle (.value ⟨⟨1, 0⟩, 2⟩))),
          .ok (.answer (.verdict .valid))] := by
  have leftLive : ((afterAll Engine.reference (start .standard .start) pairRun).store.context?
      ⟨0, 0⟩).isSome = true := by decide +kernel
  have rightLive : ((afterAll Engine.reference (start .standard .start) pairRun).store.context?
      ⟨1, 0⟩).isSome = true := by decide +kernel
  have within : ∀ request ∈ pairRequests,
      request.isWithin ⟨0, 0⟩ = true ∨ request.isWithin ⟨1, 0⟩ = true := by decide
  have alone : ((afterAll Engine.reference (start .standard .start) pairRun).responses
      Engine.reference (pairRequests.filter (Request.isWithin ⟨1, 0⟩))).map Prod.snd =
        [.ok (.answer (.handle (.block ⟨⟨1, 0⟩, 0⟩))), .ok (.answer (.handle (.value ⟨⟨1, 0⟩, 2⟩))),
          .ok (.answer (.verdict .valid))] := by decide +kernel
  obtain ⟨left, here⟩ := Option.isSome_iff_exists.mp leftLive
  obtain ⟨right, there⟩ := Option.isSome_iff_exists.mp rightLive
  have isolates := contexts_isolated ⟨.standard, pairRun, rfl⟩ here there (by decide)
  exact ⟨isolates, (congrArg (List.map Prod.snd) (isolates.responses pairRequests within)).trans
    alone⟩

end Workspace

end TypedIR
