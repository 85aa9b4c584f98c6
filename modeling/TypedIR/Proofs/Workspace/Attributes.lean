import TypedIR.Proofs.Context.Attributes
import TypedIR.Proofs.Workspace.Stability
import TypedIR.Proofs.Workspace.Tasks

/-!
Contract: the attributes of a function in the course of a run of attribute edits.

Owns:
- the edits of attributes, each with the one entry that it writes, if any;
- the map of a function's attributes, as such edits revise it;
- what a client sees of a function whose attributes are those of a map, and what becomes of the
  edits at its sites.

Does not own: edits of other kinds, which leave attributes alone or delete the function.
-/

namespace TypedIR

open Function (update)

variable {σ : Type} {engine : Engine σ} {settings : Settings} {context after : Context}
  {function other : FunctionId} {parameters otherParameters : List ValueId}
  {map otherMap : AttributeMap} {edit : Edit} {place : Site × AttributeKey}
  {content : Option Attribute} {answer : Answer}

/-! ### Edits of attributes -/

namespace Edit

def isAttribution : Edit → Bool
  | .addAttribute _ _ _ | .addTargetAttribute _ _ _ | .removeAttribute _ _ _
  | .setAlignment _ _ => true
  | _ => false

/-- The one place among the attributes of the function at which the edit writes, and what it leaves
there. It writes nothing elsewhere. -/
def writes? (function : FunctionId) (parameters : List ValueId) :
    Edit → Option ((Site × AttributeKey) × Option Attribute)
  | .addAttribute target site value =>
      if target = function ∧ site.Fits parameters.length then
        some ((site, value.key), some value)
      else none
  | .addTargetAttribute target key text =>
      if target = function then some ((.function, .string key), some (.string key text)) else none
  | .removeAttribute target site key =>
      if target = function ∧ site.Fits parameters.length then some ((site, key), none) else none
  | .setAlignment value align =>
      if value ∈ parameters ∧ isPowerOfTwo align.toNat then
        some ((.parameter (parameters.idxOf value), .enumerated .alignment),
          some (.enumerated .alignment align.toUInt64))
      else none
  | _ => none

/-- The attributes of the function after the edit. -/
def revise (function : FunctionId) (parameters : List ValueId) (map : AttributeMap) (edit : Edit) :
    AttributeMap :=
  match edit.writes? function parameters with
  | some (place, content) => update map place content
  | none => map

theorem isAttribution_of_writes (writes : (edit.writes? function parameters).isSome) :
    edit.isAttribution = true := by
  cases edit <;> first | rfl | cases writes

/-- It makes no difference whether what is removed was added just before. -/
theorem revise_add_remove (site : Site) (value : Attribute) :
    (removeAttribute function site value.key).revise function parameters
        ((addAttribute function site value).revise function parameters map) =
      (removeAttribute function site value.key).revise function parameters map := by
  unfold revise writes?
  by_cases fits : site.Fits parameters.length
  · simp only [fits, and_self, if_true, Function.update_idem]
  · simp only [fits, and_false, if_false]

end Edit

/-! ### In one context -/

namespace Context

theorem Bears.context_eq (bears : context.Bears function parameters map) {value : ValueId}
    (listed : value ∈ parameters) : value.context = function.context := by
  obtain ⟨entry, resolved, rfl, _⟩ := bears
  obtain ⟨parameter, _, rfl⟩ := List.mem_map.mp listed
  exact (resolveFunction_eq_ok.mp resolved).1.symm

/-- An edit that writes at a live function has its effect there. -/
theorem Bears.written (settings : Settings) (owned : context.Owned)
    (bears : context.Bears function parameters map)
    (writes : edit.writes? function parameters = some (place, content)) :
    (edit.operation settings).home = function.context ∧ (edit.operation settings).screen = .ok () ∧
      ∃ after, ((edit.operation settings).effect context).1 = .ok (.done, after) ∧
        after.Bears function parameters (update map place content) := by
  cases edit with
  | addAttribute target site value =>
      obtain ⟨⟨rfl, fits⟩, equal⟩ := Option.ite_none_right_eq_some.mp writes
      obtain ⟨rfl, rfl⟩ := Prod.mk.inj (Option.some.inj equal)
      obtain ⟨after, done, still⟩ := bears.add fits value
      refine ⟨rfl, rfl, after, Operation.map_eq_ok.mpr ⟨(), ?_, rfl⟩, still⟩
      rwa [Operation.addAttribute, Operation.noted, Operation.reported_effect]
  | addTargetAttribute target key text =>
      obtain ⟨rfl, equal⟩ := Option.ite_none_right_eq_some.mp writes
      obtain ⟨rfl, rfl⟩ := Prod.mk.inj (Option.some.inj equal)
      have fits : Site.function.Fits parameters.length := trivial
      obtain ⟨after, done, still⟩ := bears.add fits (.string key text)
      refine ⟨rfl, rfl, after, Operation.map_eq_ok.mpr ⟨(), ?_, rfl⟩, still⟩
      rwa [Operation.addTargetAttribute, Operation.addAttribute, Operation.noted,
        Operation.reported_effect]
  | removeAttribute target site key =>
      obtain ⟨⟨rfl, fits⟩, equal⟩ := Option.ite_none_right_eq_some.mp writes
      obtain ⟨rfl, rfl⟩ := Prod.mk.inj (Option.some.inj equal)
      obtain ⟨after, done, still⟩ := bears.remove fits key
      exact ⟨rfl, rfl, after, Operation.map_eq_ok.mpr ⟨(), done, rfl⟩, still⟩
  | setAlignment value align =>
      obtain ⟨⟨member, power⟩, equal⟩ := Option.ite_none_right_eq_some.mp writes
      obtain ⟨rfl, rfl⟩ := Prod.mk.inj (Option.some.inj equal)
      have position := List.idxOf_lt_length_of_mem member
      have fits : (Site.parameter (parameters.idxOf value)).Fits parameters.length := position
      have listed : parameters[parameters.idxOf value]? = some value :=
        List.getElem?_idxOf member
      obtain ⟨after, done, still⟩ := bears.add fits (.enumerated .alignment align.toUInt64)
      refine ⟨bears.context_eq member, rfl, after, Operation.map_eq_ok.mpr ⟨(), ?_, rfl⟩, still⟩
      rw [Operation.setAlignment, Operation.reported_effect]
      exact setAlignment_eq_ok.mpr
        ⟨function, _, (bears.parameterPlace_eq_ok owned).mpr listed, power, done⟩
  | _ => cases writes

/-- An edit of attributes that does not write at a live function is not seen there. -/
theorem Bears.unwritten (owned : context.Owned) (bears : context.Bears function parameters map)
    (attribution : edit.isAttribution = true) (silent : edit.writes? function parameters = none)
    (done : ((edit.operation settings).effect context).1 = .ok (answer, after)) :
    after.Bears function parameters map := by
  cases edit with
  | addAttribute target site value =>
      obtain ⟨_, applied⟩ := Operation.reported_done done
      exact bears.add_elsewhere applied fun here => nomatch (if_pos here).symm.trans silent
  | addTargetAttribute target key text =>
      obtain ⟨_, applied⟩ := Operation.reported_done done
      exact bears.add_elsewhere applied fun here => nomatch (if_pos here.1).symm.trans silent
  | removeAttribute target site key =>
      obtain ⟨_, applied⟩ := Operation.quiet_done done
      exact bears.remove_elsewhere applied fun here => nomatch (if_pos here).symm.trans silent
  | setAlignment value align =>
      obtain ⟨_, applied⟩ := Operation.reported_done done
      obtain ⟨target, position, located, power, added⟩ := setAlignment_eq_ok.mp applied
      refine bears.add_elsewhere added fun ⟨same, _⟩ => ?_
      subst same
      have member : value ∈ parameters :=
        List.mem_of_getElem? ((bears.parameterPlace_eq_ok owned).mp located)
      exact nomatch (if_pos ⟨member, power⟩).symm.trans silent
  | _ => cases attribution

/-- No value is a parameter of two functions. -/
theorem Bears.parameters_disjoint (owned : context.Owned)
    (bears : context.Bears function parameters map)
    (others : context.Bears other otherParameters otherMap) (apart : other ≠ function)
    {value : ValueId} (member : value ∈ parameters) : value ∉ otherParameters := by
  intro otherMember
  obtain ⟨position, listed⟩ := List.getElem?_of_mem member
  obtain ⟨otherPosition, otherListed⟩ := List.getElem?_of_mem otherMember
  have located := (bears.parameterPlace_eq_ok owned).mpr listed
  have elsewhere := (others.parameterPlace_eq_ok owned).mpr otherListed
  exact apart (Prod.mk.inj (Except.ok.inj (elsewhere.symm.trans located))).1

end Context

/-! ### In a workspace -/

namespace Workspace

variable {workspace : Workspace σ}

/-- The function is live, with these parameters and attributes. -/
def Bears (workspace : Workspace σ) (function : FunctionId) (parameters : List ValueId)
    (map : AttributeMap) : Prop :=
  ∃ context, workspace.store.context? function.context = some context ∧
    context.Bears function parameters map

theorem exists_bears (live : workspace.store.Live (.function function)) :
    ∃ parameters map, workspace.Bears function parameters map := by
  obtain ⟨context, found, home, entry, lookup⟩ := live
  exact ⟨_, _, context, found, entry, Context.resolveFunction_eq_ok.mpr ⟨home, lookup⟩, rfl, rfl⟩

namespace Bears

variable (every : workspace.Every settings Context.Coherent)
  (bears : workspace.Bears function parameters map)

include every bears

theorem written (engine : Engine σ)
    (writes : edit.writes? function parameters = some (place, content)) :
    ((Command.edit edit).run engine workspace).result = .ok .done ∧
      ((Command.edit edit).run engine workspace).workspace.Bears function parameters
        (update map place content) := by
  obtain ⟨context, found, held⟩ := bears
  obtain ⟨_, coherent⟩ := every.contexts _ _ found
  obtain ⟨home, passed, after, applied, still⟩ :=
    held.written workspace.store.settings coherent.owned writes
  obtain ⟨done, alters⟩ := edit_alters engine passed home found applied
  exact ⟨done, after, alters.here, still⟩

theorem unwritten (engine : Engine σ) (attribution : edit.isAttribution = true)
    (silent : edit.writes? function parameters = none) :
    ((Command.edit edit).run engine workspace).workspace.Bears function parameters map := by
  cases outcome : ((Command.edit edit).run engine workspace).result with
  | error fault => rwa [edit_refused outcome]
  | ok answer =>
      obtain ⟨context, found, held⟩ := bears
      obtain ⟨passed, home, changed, lookup, applied⟩ := edit_eq_ok.mp outcome
      obtain ⟨_, alters⟩ := edit_alters engine passed rfl lookup applied
      by_cases here : function.context = (edit.operation workspace.store.settings).home
      · rw [← here] at lookup alters
        obtain rfl := Option.some.inj (found.symm.trans lookup)
        obtain ⟨_, coherent⟩ := every.contexts _ _ found
        exact ⟨changed, alters.here, held.unwritten coherent.owned attribution silent applied⟩
      · exact ⟨context, (alters.others _ here).trans found, held⟩

/-- One edit revises the map. -/
theorem step (engine : Engine σ) (attribution : edit.isAttribution = true) :
    ((Command.edit edit).run engine workspace).workspace.Bears function parameters
      (edit.revise function parameters map) := by
  unfold Edit.revise
  cases writes : edit.writes? function parameters with
  | none => exact bears.unwritten every engine attribution writes
  | some written => exact (bears.written every engine writes).2

end Bears

/-- Edits as tasks of a run, each for its own engine. -/
def editing (edits : List (Engine σ × Edit)) : List (Engine σ × Task) :=
  edits.map fun step => (step.1, .request (.command (.edit step.2)))

/-- A run of edits revises the map by one after the other. -/
theorem Bears.pursue (proper : workspace.Proper settings)
    (bears : workspace.Bears function parameters map) {edits : List (Engine σ × Edit)}
    (attributions : ∀ step ∈ edits, step.2.isAttribution = true) :
    (workspace.pursue (editing edits)).1.Bears function parameters
      (edits.foldl (fun map step => step.2.revise function parameters map) map) := by
  induction edits generalizing workspace map with
  | nil => exact bears
  | cons step rest inductionHypothesis =>
      obtain ⟨first, others⟩ := List.forall_mem_cons.mp attributions
      have next := bears.step proper.1 step.1 first
      have left : ((Request.command (.edit step.2)).run step.1 workspace).workspace =
          ((Command.edit step.2).run step.1 workspace).workspace :=
        (Action.trace_bind_pure _ _ _).1
      rw [← left] at next
      exact inductionHypothesis (proper.pursue (editing [step])) next others

/-- What a client sees of a live function with these parameters and attributes, and what becomes of
the edits at its sites. -/
structure Attributed (workspace : Workspace σ) (function : FunctionId) (parameters : List ValueId)
    (map : AttributeMap) : Prop where
  list : (Query.parameters function).answer workspace.store =
    .ok (.handles (parameters.map .value))
  /-- A value that is a parameter of the function stands at its own position. -/
  positions : ∀ position value, parameters[position]? = some value ↔
    (Query.valueKind value).answer workspace.store =
      .ok (.kind function.context (.parameter function.index position))
  keyed : ∀ site key value, map (site, key) = some value → value.key = key
  entries : ∀ site key, site.Fits parameters.length →
    (Query.attributeOf function site key).answer workspace.store =
      .ok (.maybeAttribute (map (site, key)))
  lists : ∀ site, site.Fits parameters.length → ∃ values, map.ListsAt site values ∧
    (Query.attributes function site).answer workspace.store = .ok (.attributes values) ∧
    (Query.attributeCount function site).answer workspace.store = .ok (.count values.length)
  alignments : ∀ position parameter, parameters[position]? = some parameter →
    (Query.alignment parameter).answer workspace.store =
      .ok (.maybeCount (Attribute.alignment?
        (map (.parameter position, .enumerated .alignment))))
  /-- An edit that writes succeeds. -/
  accepts : ∀ (engine : Engine σ) edit, (edit.writes? function parameters).isSome →
    ((Command.edit edit).run engine workspace).result = .ok .done
  /-- Behind the last parameter nothing is read. -/
  unread : ∀ position key, parameters.length ≤ position →
    ∀ query ∈ [Query.attributes function (.parameter position),
        .attributeCount function (.parameter position),
        .attributeOf function (.parameter position) key],
      query.answer workspace.store = .error (.positionOutOfRange position parameters.length)
  /-- Behind the last parameter nothing is added or removed. -/
  refuses : ∀ (engine : Engine σ) position key value, parameters.length ≤ position →
    ∀ edit ∈ [Edit.addAttribute function (.parameter position) value,
        .removeAttribute function (.parameter position) key],
      ((Command.edit edit).run engine workspace).result =
          .error (.positionOutOfRange position parameters.length) ∧
        ((Command.edit edit).run engine workspace).workspace = workspace

namespace Bears

variable (every : workspace.Every settings Context.Coherent)
  (bears : workspace.Bears function parameters map)

include every bears

theorem positions {position : Nat} {value : ValueId} :
    parameters[position]? = some value ↔
      (Query.valueKind value).answer workspace.store =
        .ok (.kind function.context (.parameter function.index position)) := by
  obtain ⟨context, found, held⟩ := bears
  obtain ⟨sameId, coherent⟩ := every.contexts _ _ found
  rw [← held.parameterPlace_eq_ok coherent.owned]
  constructor
  · intro located
    obtain ⟨home, _, _, lookup⟩ := Context.parameterPlace_ok located
    have tag : (Query.valueKind value).home = function.context := home.trans sameId
    rw [Query.answer_of_found _ (tag ▸ found), ← sameId]
    exact bind_eq_ok.mpr ⟨_, Context.resolveValue_eq_ok.mpr ⟨home, lookup⟩, rfl⟩
  · intro answer
    obtain ⟨other, lookup, kind⟩ := Store.read_done answer
    obtain ⟨⟨type, _, name⟩, resolved, same⟩ := bind_eq_ok.mp kind
    obtain ⟨homeId, rfl⟩ := Fact.kind.inj (Except.ok.inj same)
    obtain ⟨home, entry⟩ := Context.resolveValue_eq_ok.mp resolved
    have tag : (Query.valueKind value).home = function.context := home.trans homeId
    obtain rfl := Option.some.inj (found.symm.trans (tag ▸ lookup))
    rw [Context.parameterPlace_of_value home entry, Context.functionId, homeId]

theorem alignments {position : Nat} {parameter : ValueId}
    (listed : parameters[position]? = some parameter) :
    (Query.alignment parameter).answer workspace.store =
      .ok (.maybeCount (Attribute.alignment?
        (map (.parameter position, .enumerated .alignment)))) := by
  obtain ⟨context, found, held⟩ := bears
  obtain ⟨_, coherent⟩ := every.contexts _ _ found
  obtain ⟨align, read, same⟩ := held.alignment?_eq coherent.owned listed
  have tag : (Query.alignment parameter).home = function.context :=
    held.context_eq (List.mem_of_getElem? listed)
  rw [Query.answer_of_found _ (tag ▸ found), ← same]
  exact bind_eq_ok.mpr ⟨align, read, rfl⟩

omit every

theorem unread {position : Nat} (outside : parameters.length ≤ position) (key : AttributeKey) :
    ∀ query ∈ [Query.attributes function (.parameter position),
        .attributeCount function (.parameter position),
        .attributeOf function (.parameter position) key],
      query.answer workspace.store =
        .error (.positionOutOfRange position parameters.length) := by
  obtain ⟨context, found, held⟩ := bears
  have refused := held.resolveSite_outside outside
  intro query asked
  simp only [List.mem_cons, List.not_mem_nil, or_false] at asked
  rcases asked with rfl | rfl | rfl
  · rw [Query.answer_of_found _ found, Query.answerIn, Context.attributesAt_refused refused]
    rfl
  · rw [Query.answer_of_found _ found, Query.answerIn, Context.attributesAt_refused refused]
    rfl
  · rw [Query.answer_of_found _ found, Query.answerIn, Context.attribute?_refused refused]
    rfl

theorem refuses (engine : Engine σ) {position : Nat} (outside : parameters.length ≤ position)
    (key : AttributeKey) (value : Attribute) :
    ∀ edit ∈ [Edit.addAttribute function (.parameter position) value,
        .removeAttribute function (.parameter position) key],
      ((Command.edit edit).run engine workspace).result =
          .error (.positionOutOfRange position parameters.length) ∧
        ((Command.edit edit).run engine workspace).workspace = workspace := by
  obtain ⟨context, found, held⟩ := bears
  have refused := held.resolveSite_outside outside
  intro edit asked
  have result : ((Command.edit edit).run engine workspace).result =
      .error (.positionOutOfRange position parameters.length) := by
    simp only [List.mem_cons, List.not_mem_nil, or_false] at asked
    rcases asked with rfl | rfl
    · refine (Action.perform_eq_error rfl found).mpr (Operation.map_eq_error.mpr ?_)
      rw [Operation.addAttribute, Operation.noted, Operation.reported_effect]
      exact Context.addAttribute_refused refused value
    · exact (Action.perform_eq_error rfl found).mpr
        (Operation.map_eq_error.mpr (Context.removeAttribute_refused refused key))
  exact ⟨result, edit_refused result⟩

include every

theorem attributed : Attributed workspace function parameters map := by
  have ⟨context, found, held⟩ := bears
  constructor
  case list =>
    rw [Query.answer_of_found _ found]
    obtain ⟨entry, resolved, rfl, _⟩ := held
    refine bind_eq_ok.mpr ⟨entry, resolved, ?_⟩
    rw [List.map_map]
    rfl
  case positions => exact fun _ _ => bears.positions every
  case keyed => exact fun _ _ _ => held.key_eq
  case entries =>
    intro site key fits
    rw [Query.answer_of_found _ found]
    exact bind_eq_ok.mpr ⟨_, held.attribute?_eq fits key, rfl⟩
  case lists =>
    intro site fits
    obtain ⟨values, lists, read⟩ := held.attributesAt_listsAt fits
    rw [Query.answer_of_found _ found, Query.answer_of_found _ found]
    exact ⟨values, lists, bind_eq_ok.mpr ⟨_, read, rfl⟩, bind_eq_ok.mpr ⟨_, read, rfl⟩⟩
  case alignments => exact fun _ _ => bears.alignments every
  case accepts =>
    intro engine edit writes
    obtain ⟨⟨place, content⟩, writes⟩ := Option.isSome_iff_exists.mp writes
    exact (bears.written every engine writes).1
  case unread => exact fun _ key outside => bears.unread outside key
  case refuses => exact fun engine _ key value outside => bears.refuses engine outside key value

end Bears

/-- Where the parameters and the map are the same, so are the lists. -/
theorem Bears.attributes_eq {before after : Workspace σ}
    (bears : before.Bears function parameters map) (still : after.Bears function parameters map)
    (site : Site) :
    (Query.attributes function site).answer after.store =
      (Query.attributes function site).answer before.store := by
  obtain ⟨context, found, held⟩ := bears
  obtain ⟨changed, lookup, kept⟩ := still
  rw [Query.answer_of_found (.attributes function site) found,
    Query.answer_of_found (.attributes function site) lookup, Query.answerIn, Query.answerIn,
    held.attributesAt_eq kept site]

/-- No edit writes at two functions. -/
theorem Bears.writes_apart (every : workspace.Every settings Context.Coherent)
    (bears : workspace.Bears function parameters map)
    (others : workspace.Bears other otherParameters otherMap) (apart : other ≠ function)
    (writes : (edit.writes? function parameters).isSome) :
    edit.writes? other otherParameters = none := by
  obtain ⟨written, writes⟩ := Option.isSome_iff_exists.mp writes
  cases edit with
  | addAttribute target site value | removeAttribute target site key =>
      obtain ⟨⟨rfl, _⟩, _⟩ := Option.ite_none_right_eq_some.mp writes
      exact if_neg fun there => apart there.1.symm
  | addTargetAttribute target key text =>
      obtain ⟨rfl, _⟩ := Option.ite_none_right_eq_some.mp writes
      exact if_neg apart.symm
  | setAlignment value align =>
      obtain ⟨⟨member, _⟩, _⟩ := Option.ite_none_right_eq_some.mp writes
      refine if_neg fun ⟨otherMember, _⟩ => ?_
      obtain ⟨context, found, held⟩ := bears
      obtain ⟨_, lookup, otherHeld⟩ := others
      have together : other.context = function.context :=
        (otherHeld.context_eq otherMember).symm.trans (held.context_eq member)
      rw [together] at lookup
      obtain rfl := Option.some.inj (found.symm.trans lookup)
      obtain ⟨_, coherent⟩ := every.contexts _ _ found
      exact held.parameters_disjoint coherent.owned otherHeld apart member otherMember
  | _ => cases writes

/-- At any time, the attributes of a live function are those of a map, which every edit of
attributes revises. What it writes at the function is seen at no other function, and an addition
that is taken back leaves what the removal alone would leave. -/
theorem attributes_exact (settings : Settings) (native : σ) (run : List (Engine σ × Task))
    {function : FunctionId}
    (live : ((start settings native).pursue run).1.store.Live (.function function)) :
    ∃ parameters map,
      (∀ edits : List (Engine σ × Edit), (∀ step ∈ edits, step.2.isAttribution = true) →
        Attributed ((start settings native).pursue (run ++ editing edits)).1 function parameters
          (edits.foldl (fun map step => step.2.revise function parameters map) map)) ∧
      (∀ other, other ≠ function →
        ((start settings native).pursue run).1.store.Live (.function other) →
        ∀ engine edit, (edit.writes? function parameters).isSome → ∀ site,
          (Query.attributes other site).answer
              ((start settings native).pursue (run ++ editing [(engine, edit)])).1.store =
            (Query.attributes other site).answer ((start settings native).pursue run).1.store) ∧
      ∀ engine site value asked,
        (Query.attributes function asked).answer
            ((start settings native).pursue (run ++ editing
              [(engine, .addAttribute function site value),
                (engine, .removeAttribute function site value.key)])).1.store =
          (Query.attributes function asked).answer
            ((start settings native).pursue (run ++ editing
              [(engine, .removeAttribute function site value.key)])).1.store := by
  have proper := (proper_start settings native).pursue run
  obtain ⟨parameters, map, bears⟩ := exists_bears live
  have after : ∀ {function : FunctionId} {parameters : List ValueId} {map : AttributeMap},
      ((start settings native).pursue run).1.Bears function parameters map →
      ∀ edits : List (Engine σ × Edit), (∀ step ∈ edits, step.2.isAttribution = true) →
        ((start settings native).pursue (run ++ editing edits)).1.Bears function parameters
          (edits.foldl (fun map step => step.2.revise function parameters map) map) := by
    intro function parameters map bears edits attributions
    rw [pursue_append]
    exact bears.pursue proper attributions
  refine ⟨parameters, map, fun edits attributions => ?_, ?_, ?_⟩
  · exact (after bears edits attributions).attributed
      ((proper_start settings native).pursue (run ++ editing edits)).1
  · intro other apart otherLive engine edit writes site
    obtain ⟨otherParameters, otherMap, others⟩ := exists_bears otherLive
    have silent := bears.writes_apart proper.1 others apart writes
    have still := after others [(engine, edit)]
      (List.forall_mem_singleton.mpr (Edit.isAttribution_of_writes writes))
    have unchanged : edit.revise other otherParameters otherMap = otherMap := by
      rw [Edit.revise, silent]
    rw [List.foldl_cons, List.foldl_nil, unchanged] at still
    exact others.attributes_eq still site
  · intro engine site value asked
    have both := after bears [(engine, .addAttribute function site value),
      (engine, .removeAttribute function site value.key)] (by simp [Edit.isAttribution])
    have alone := after bears [(engine, .removeAttribute function site value.key)]
      (by simp [Edit.isAttribution])
    simp only [List.foldl_cons, List.foldl_nil] at both alone
    rw [Edit.revise_add_remove] at both
    exact alone.attributes_eq both asked

/-- Two functions of one parameter each. -/
def bareRun : List (Engine ReferenceState × Task) :=
  let context : ContextId := ⟨0, 0⟩
  let commands : List Command :=
    [.createContext "attributes",
      .edit (.integerType context 32),
      .edit (.signatureType ⟨context, 0⟩ [⟨context, 0⟩] false),
      .edit (.declare context "f" ⟨context, 1⟩),
      .edit (.declare context "g" ⟨context, 1⟩)]
  commands.map fun command => (.reference, .request (.command command))

/-- Attributes of the first function, in an order that is not theirs, one of them replaced, one
removed, one behind the last parameter, and one of the other function. -/
def attributing : List (Engine ReferenceState × Edit) :=
  let first : FunctionId := ⟨⟨0, 0⟩, 0⟩
  let second : FunctionId := ⟨⟨0, 0⟩, 2⟩
  let edits : List Edit :=
    [.addTargetAttribute first "cpu" "old",
      .addAttribute first .function (.enumerated .noUnwind 0),
      .addAttribute first .function (.string "abi" ""),
      .addTargetAttribute first "cpu" "new",
      .addAttribute first .function (.enumerated .cold 0),
      .removeAttribute first .function (.enumerated .cold),
      .addAttribute first (.parameter 1) (.enumerated .noUndef 0),
      .addAttribute second .function (.enumerated .cold 0),
      .setAlignment ⟨⟨0, 0⟩, 1⟩ 8]
  edits.map fun edit => (.reference, edit)

/-- The replaced attribute is the new one, the removed one is gone, the one behind the last
parameter was refused, and the alignment is recorded at the parameter. -/
theorem attributing_exact :
    let function : FunctionId := ⟨⟨0, 0⟩, 0⟩
    let bare := ((start .standard ReferenceState.start).pursue bareRun).1
    let workspace := ((start .standard ReferenceState.start).pursue
      (bareRun ++ editing attributing)).1
    bare.store.Live (.function function) ∧
      (∀ step ∈ attributing, step.2.isAttribution = true) ∧
      ∃ map, Attributed workspace function [⟨⟨0, 0⟩, 1⟩] map ∧
        map (.function, .string "cpu") = some (.string "cpu" "new") ∧
        map (.function, .enumerated .cold) = none ∧
        map (.parameter 0, .enumerated .alignment) = some (.enumerated .alignment 8) ∧
        map.ListsAt .function
          [.enumerated .noUnwind 0, .string "abi" "", .string "cpu" "new"] := by
  intro function bare workspace
  have declared : (Query.parameters function).answer bare.store =
      .ok (.handles [.value ⟨⟨0, 0⟩, 1⟩]) := by decide +kernel
  have listed : (Query.parameters function).answer workspace.store =
      .ok (.handles [.value ⟨⟨0, 0⟩, 1⟩]) := by decide +kernel
  have replaced : (Query.attributeOf function .function (.string "cpu")).answer workspace.store =
      .ok (.maybeAttribute (some (.string "cpu" "new"))) := by decide +kernel
  have removed : (Query.attributeOf function .function (.enumerated .cold)).answer
      workspace.store = .ok (.maybeAttribute none) := by decide +kernel
  have aligned : (Query.attributeOf function (.parameter 0) (.enumerated .alignment)).answer
      workspace.store = .ok (.maybeAttribute (some (.enumerated .alignment 8))) := by
    decide +kernel
  have read : (Query.attributes function .function).answer workspace.store =
      .ok (.attributes [.enumerated .noUnwind 0, .string "abi" "", .string "cpu" "new"]) := by
    decide +kernel
  have proper := (proper_start .standard ReferenceState.start).pursue bareRun
  have live : bare.store.Live (.function function) := proper.1.live_of_answer declared
  have attributions : ∀ step ∈ attributing, step.2.isAttribution = true := by decide
  obtain ⟨parameters, map, attributed, _⟩ :=
    attributes_exact .standard ReferenceState.start bareRun live
  have final := attributed attributing attributions
  generalize attributing.foldl _ map = map at final
  have parameter : parameters = [⟨⟨0, 0⟩, 1⟩] :=
    List.map_injective_iff.mpr (fun _ _ => Handle.value.inj)
      (Fact.handles.inj (Except.ok.inj (final.list.symm.trans listed)))
  subst parameter
  have entry : ∀ site key held, site.Fits 1 →
      (Query.attributeOf function site key).answer workspace.store =
        .ok (.maybeAttribute held) → map (site, key) = held :=
    fun site key held fits answer =>
      Fact.maybeAttribute.inj (Except.ok.inj ((final.entries site key fits).symm.trans answer))
  obtain ⟨values, lists, found, _⟩ := final.lists .function trivial
  obtain rfl := Fact.attributes.inj (Except.ok.inj (found.symm.trans read))
  exact ⟨live, attributions, map, final, entry _ _ _ trivial replaced,
    entry _ _ _ trivial removed, entry _ _ _ Nat.zero_lt_one aligned, lists⟩

end Workspace

end TypedIR
