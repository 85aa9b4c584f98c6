import TypedIR.Proofs.Context.Operations
import TypedIR.Proofs.Workspace.Dead
import TypedIR.Workspace.Query

/-!
Contract: what queries need of the handle that they are given.

Owns:
- the handle of a query;
- that an answered query was given a live handle;
- the fault of a query about a released context.
-/

namespace TypedIR

namespace Query

/-- The handle that the query is given. -/
def handle : Query → Handle
  | .owner handle => handle
  | .moduleName context | .functions context | .functionNamed context _ | .moduleText context
  | .summary context => .context context
  | .typeShape type | .elementType type | .arrayLength type | .structFields type
  | .signatureParts type | .typeText type => .type type
  | .typeOf value | .valueName value | .valueKind value | .alignment value => .value value
  | .functionName function | .signature function | .functionText function | .blocks function
  | .entryBlock function | .parameterAt function _ | .parameterCount function
  | .parameters function | .convention function | .conventionCode function
  | .personality function | .hasPersonality function | .collector function
  | .attributes function _ | .attributeOf function _ _ | .attributeCount function _
  | .state function => .function function
  | .blockName block | .blockParent block | .instructions block => .block block

theorem handle_tag (query : Query) : query.handle.tag = query.home := by
  cases query <;> rfl

variable {context : Context}

theorem live_of_ownerIn {handle : Handle} {owner : ContextId} (home : handle.tag = context.id)
    (done : ownerIn context handle = .ok owner) : context.Live handle := by
  cases handle with
  | context id => exact home
  | type type =>
      obtain ⟨shape, resolved, _⟩ := bind_eq_ok.mp done
      exact Context.live_of_resolveType resolved
  | value value =>
      obtain ⟨entry, resolved, _⟩ := bind_eq_ok.mp done
      exact Context.live_of_resolveValue resolved
  | function function =>
      obtain ⟨entry, resolved, _⟩ := bind_eq_ok.mp done
      exact Context.live_of_resolveFunction resolved
  | block block =>
      obtain ⟨entry, resolved, _⟩ := bind_eq_ok.mp done
      exact Context.live_of_resolveBlock resolved

/-- A query that is answered in a context was given a live handle of it. -/
theorem live_of_answerIn {query : Query} {fact : Fact} (home : query.home = context.id)
    (done : query.answerIn context = .ok fact) : context.Live query.handle := by
  cases query with
  | owner handle =>
      obtain ⟨owner, found, _⟩ := bind_eq_ok.mp done
      exact live_of_ownerIn home found
  | moduleName id | functions id | functionNamed id name | moduleText id | summary id => exact home
  | typeShape type =>
      obtain ⟨shape, resolved, _⟩ := bind_eq_ok.mp done
      exact Context.live_of_resolveType resolved
  | elementType type | arrayLength type | structFields type | signatureParts type
  | typeText type =>
      obtain ⟨part, found, _⟩ := bind_eq_ok.mp done
      obtain ⟨shape, resolved, _⟩ := bind_eq_ok.mp found
      exact Context.live_of_resolveType resolved
  | typeOf value | valueName value | valueKind value =>
      obtain ⟨entry, resolved, _⟩ := bind_eq_ok.mp done
      exact Context.live_of_resolveValue resolved
  | alignment value =>
      obtain ⟨align, found, _⟩ := bind_eq_ok.mp done
      obtain ⟨⟨function, position⟩, place, _⟩ := bind_eq_ok.mp found
      obtain ⟨tagged, _, _, lookup⟩ := Context.parameterPlace_ok place
      exact ⟨tagged, _, lookup⟩
  | signature function | functionText function | blocks function | entryBlock function
  | parameterCount function | parameters function | convention function
  | conventionCode function | hasPersonality function | collector function | state function =>
      obtain ⟨entry, resolved, _⟩ := bind_eq_ok.mp done
      exact Context.live_of_resolveFunction resolved
  | functionName function | parameterAt function position | personality function =>
      obtain ⟨part, found, _⟩ := bind_eq_ok.mp done
      obtain ⟨entry, resolved, _⟩ := bind_eq_ok.mp found
      exact Context.live_of_resolveFunction resolved
  | attributes function site | attributeOf function site key | attributeCount function site =>
      obtain ⟨part, found, _⟩ := bind_eq_ok.mp done
      obtain ⟨entry, resolved, _⟩ := bind_eq_ok.mp found
      obtain ⟨tagged, lookup⟩ := Context.resolveSite_ok resolved
      exact ⟨tagged, entry, lookup⟩
  | blockName block | blockParent block | instructions block =>
      obtain ⟨entry, resolved, _⟩ := bind_eq_ok.mp done
      exact Context.live_of_resolveBlock resolved

end Query

/-! ### Reading a store -/

namespace Store

variable {α : Type} {store : Store} {id : ContextId}

theorem read_released (gone : store.context? id = none) (query : Context → Except Fault α) :
    store.read id query = .error (.released (.context id)) := by
  unfold read resolve
  rw [gone]
  rfl

end Store

namespace Query

theorem answer_released {store : Store} {query : Query}
    (gone : store.context? query.handle.tag = none) :
    query.answer store = .error (.released (.context query.handle.tag)) := by
  rw [handle_tag] at gone ⊢
  exact Store.read_released gone _

theorem answer_of_found {store : Store} (query : Query)
    (found : store.context? query.home = some context) :
    query.answer store = query.answerIn context := by
  unfold answer Store.read
  rw [Store.resolve_eq_ok.mpr found]
  rfl

end Query

namespace Workspace

variable {σ : Type} {workspace : Workspace σ} {query : Query} {fact : Fact}

theorem Every.live_of_answer {settings : Settings} {holds : Context → Prop}
    (every : workspace.Every settings holds) (done : query.answer workspace.store = .ok fact) :
    workspace.store.Live query.handle := by
  obtain ⟨context, found, answered⟩ := Store.read_done done
  obtain ⟨sameId, _⟩ := every.contexts _ context found
  refine ⟨context, ?_, Query.live_of_answerIn sameId.symm answered⟩
  rw [Query.handle_tag, found]

theorem Reachable.live_of_answer {engine : Engine σ} {initial : σ}
    (reachable : Reachable engine initial workspace)
    (done : query.answer workspace.store = .ok fact) : workspace.store.Live query.handle :=
  reachable.every.live_of_answer done

end Workspace

end TypedIR
