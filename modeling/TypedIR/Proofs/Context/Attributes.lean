import TypedIR.Context.Attributes
import TypedIR.Proofs.Attribute.Table
import TypedIR.Proofs.Description.Growth

/-!
Contract: the attributes of one live function of a context, as a map.

Owns:
- the sites that a function with so many parameters has;
- the function with its parameters and the map of its attributes, and what reads and writes of
  attributes come to in terms of them;
- that the value table sends the parameters back to their positions.

Does not own: the attributes of the other functions, which stay.
-/

namespace TypedIR

open Function (update)

/-- The site is one of a function with so many parameters. -/
def Site.Fits (count : Nat) : Site → Prop
  | .parameter position => position < count
  | .ret | .function => True

instance (count : Nat) : (site : Site) → Decidable (site.Fits count)
  | .parameter position => Nat.decLt position count
  | .ret | .function => .isTrue trivial

/-- The number of an alignment, if it fits 32 bits. -/
def Attribute.alignment? : Option Attribute → Option Nat
  | some (.enumerated _ number) => if number.toNat < UInt32.size then some number.toNat else none
  | _ => none

namespace Context

variable {context after : Context} {function target : FunctionId} {entry : FunctionEntry}
  {site : Site} {key : AttributeKey} {value : Attribute} {parameters : List ValueId}
  {map : AttributeMap} {position : Nat}

/-! ### Sites -/

theorem requireSite_of_fits (fits : site.Fits entry.parameters.length) :
    requireSite entry site = .ok () := by
  cases site with
  | parameter position => exact if_pos fits
  | _ => rfl

theorem resolveSite_of_fits (resolved : context.resolveFunction function = .ok entry)
    (fits : site.Fits entry.parameters.length) : context.resolveSite function site = .ok entry := by
  unfold resolveSite
  rw [resolved, ok_bind, requireSite_of_fits fits]
  rfl

theorem resolveSite_outside (resolved : context.resolveFunction function = .ok entry)
    (outside : entry.parameters.length ≤ position) :
    context.resolveSite function (.parameter position) =
      .error (.positionOutOfRange position entry.parameters.length) := by
  unfold resolveSite
  rw [resolved, ok_bind, requireSite, if_neg (Nat.not_lt.mpr outside)]
  rfl

/-! Without the site nothing is read or written. -/

section Refused

variable {fault : Fault} (refused : context.resolveSite function site = .error fault)

include refused

theorem attributesAt_refused : context.attributesAt function site = .error fault := by
  unfold attributesAt
  rw [refused]
  rfl

theorem attribute?_refused : context.attribute? function site key = .error fault := by
  unfold attribute?
  rw [refused]
  rfl

theorem addAttribute_refused (value : Attribute) :
    context.addAttribute function site value = .error fault := by
  unfold addAttribute
  rw [refused]
  rfl

theorem removeAttribute_refused (key : AttributeKey) :
    context.removeAttribute function site key = .error fault := by
  unfold removeAttribute
  rw [refused]
  rfl

end Refused

/-! ### Changes of one function -/

/-- A change of one function's attachments is seen at that function only. -/
theorem resolveFunction_updateFunction {change : FunctionEntry → FunctionEntry}
    (self : ∀ entry, (change entry).self = entry.self) (tagged : target.context = context.id)
    (resolved : context.resolveFunction function = .ok entry) :
    (context.updateFunction target.index change).resolveFunction function =
      .ok (if target = function then change entry else entry) := by
  obtain ⟨home, found⟩ := resolveFunction_eq_ok.mp resolved
  refine resolveFunction_eq_ok.mpr ⟨home, ?_⟩
  rw [function?_updateFunction self, found]
  by_cases here : target = function
  · rw [if_pos here, if_pos (congrArg FunctionId.index here.symm), Option.map_some]
  · have apart : function.index ≠ target.index := fun same => here <| by
      cases function
      cases target
      exact FunctionId.mk.injEq .. ▸ ⟨tagged.trans home.symm, same.symm⟩
    rw [if_neg here, if_neg apart]

/-! ### Writes -/

theorem addAttribute_eq (resolved : context.resolveSite function site = .ok entry)
    (value : Attribute) :
    context.addAttribute function site value =
      .ok ((), context.updateFunction function.index fun entry =>
        { entry with attributes := entry.attributes.insert site value }.edited) := by
  obtain ⟨home, found⟩ := resolveSite_ok resolved
  unfold addAttribute
  rw [resolved, ok_bind]
  exact editFunction_eq_ok.mpr ⟨⟨home, entry, found⟩, rfl⟩

theorem removeAttribute_eq (resolved : context.resolveSite function site = .ok entry)
    (key : AttributeKey) :
    context.removeAttribute function site key =
      .ok ((), if (entry.attributes.get? site key).isSome then
          context.updateFunction function.index fun entry =>
            { entry with attributes := entry.attributes.erase site key }.edited
        else context) := by
  obtain ⟨home, found⟩ := resolveSite_ok resolved
  unfold removeAttribute
  rw [resolved, ok_bind]
  by_cases present : (entry.attributes.get? site key).isSome
  · rw [if_pos present, if_pos present]
    exact editFunction_eq_ok.mpr ⟨⟨home, entry, found⟩, rfl⟩
  · rw [if_neg present, if_neg present]
    rfl

/-- The function is live, with these parameters and attributes. -/
def Bears (context : Context) (function : FunctionId) (parameters : List ValueId)
    (map : AttributeMap) : Prop :=
  ∃ entry, context.resolveFunction function = .ok entry ∧
    entry.parameters.map context.valueId = parameters ∧ entry.attributes.toMap = map

namespace Bears

variable (bears : context.Bears function parameters map)

include bears

/-- A change of another function is not seen. -/
theorem updateFunction_other {change : FunctionEntry → FunctionEntry}
    (self : ∀ entry, (change entry).self = entry.self) (tagged : target.context = context.id)
    (apart : target ≠ function) :
    (context.updateFunction target.index change).Bears function parameters map := by
  obtain ⟨entry, resolved, listed, same⟩ := bears
  have kept := resolveFunction_updateFunction self tagged resolved
  rw [if_neg apart] at kept
  exact ⟨entry, kept, listed, same⟩

/-- A rewriting of the function's attributes is all that is seen of it. -/
theorem rewriting (rewritten : AttributeTable → AttributeTable) {next : AttributeMap}
    (changed : ∀ table, table.toMap = map → (rewritten table).toMap = next) :
    (context.updateFunction function.index fun entry =>
      { entry with attributes := rewritten entry.attributes }.edited).Bears function parameters
        next := by
  obtain ⟨entry, resolved, listed, same⟩ := bears
  have found := @resolveFunction_updateFunction _ _ _ _ (fun entry =>
    { entry with attributes := rewritten entry.attributes }.edited) (fun _ => rfl)
    (resolveFunction_eq_ok.mp resolved).1 resolved
  rw [if_pos rfl] at found
  exact ⟨_, found, listed, changed _ same⟩

theorem add (fits : site.Fits parameters.length) (value : Attribute) :
    ∃ after, context.addAttribute function site value = .ok ((), after) ∧
      after.Bears function parameters (update map (site, value.key) (some value)) := by
  have ⟨entry, resolved, listed, _⟩ := bears
  rw [← listed, List.length_map] at fits
  refine ⟨_, addAttribute_eq (resolveSite_of_fits resolved fits) value, ?_⟩
  refine bears.rewriting (fun table => table.insert site value) fun table same => ?_
  rw [← same]
  exact table.toMap_insert site value

theorem remove (fits : site.Fits parameters.length) (key : AttributeKey) :
    ∃ after, context.removeAttribute function site key = .ok ((), after) ∧
      after.Bears function parameters (update map (site, key) none) := by
  have ⟨entry, resolved, listed, same⟩ := bears
  rw [← listed, List.length_map] at fits
  refine ⟨_, removeAttribute_eq (resolveSite_of_fits resolved fits) key, ?_⟩
  by_cases present : (entry.attributes.get? site key).isSome
  · rw [if_pos present]
    refine bears.rewriting (fun table => table.erase site key) fun table same => ?_
    rw [← same]
    exact table.toMap_erase site key
  · rw [if_neg present]
    -- What is not there is removed already.
    have absent : map (site, key) = none := by
      rw [← same]
      exact Option.not_isSome_iff_eq_none.mp present
    rwa [← absent, Function.update_eq_self]

/-- What succeeds at the function has found its site. -/
theorem fits_of_resolveSite (resolved : context.resolveSite function site = .ok entry) :
    site.Fits parameters.length := by
  obtain ⟨found, lookup, listed, _⟩ := bears
  unfold resolveSite at resolved
  simp only [bind_eq_ok, lookup] at resolved
  obtain ⟨_, ⟨⟩, _, passed, _⟩ := resolved
  rw [← listed, List.length_map]
  cases site with
  | parameter position => exact requireSite_eq_ok.mp passed position rfl
  | _ => exact trivial

theorem add_elsewhere {result : Unit}
    (done : context.addAttribute target site value = .ok (result, after))
    (elsewhere : ¬ (target = function ∧ site.Fits parameters.length)) :
    after.Bears function parameters map := by
  obtain ⟨entry, resolved, _⟩ := bind_eq_ok.mp done
  have apart : target ≠ function := by
    rintro rfl
    exact elsewhere ⟨rfl, bears.fits_of_resolveSite resolved⟩
  obtain ⟨_, rfl⟩ := Prod.mk.inj (Except.ok.inj ((addAttribute_eq resolved value).symm.trans done))
  exact bears.updateFunction_other (fun _ => rfl) (resolveSite_ok resolved).1 apart

theorem remove_elsewhere {result : Unit}
    (done : context.removeAttribute target site key = .ok (result, after))
    (elsewhere : ¬ (target = function ∧ site.Fits parameters.length)) :
    after.Bears function parameters map := by
  obtain ⟨entry, resolved, _⟩ := bind_eq_ok.mp done
  have apart : target ≠ function := by
    rintro rfl
    exact elsewhere ⟨rfl, bears.fits_of_resolveSite resolved⟩
  obtain ⟨_, rfl⟩ := Prod.mk.inj (Except.ok.inj ((removeAttribute_eq resolved key).symm.trans done))
  by_cases present : (entry.attributes.get? site key).isSome
  · rw [if_pos present]
    exact bears.updateFunction_other (fun _ => rfl) (resolveSite_ok resolved).1 apart
  · rwa [if_neg present]

end Bears

/-! ### Parameters -/

/-- A parameter is a value at its own position of its own function. -/
theorem parameterPlace_eq_ok (owned : context.Owned)
    (resolved : context.resolveFunction function = .ok entry) {value : ValueId} :
    context.parameterPlace value = .ok (function, position) ↔
      (entry.parameters.map context.valueId)[position]? = some value := by
  obtain ⟨home, found⟩ := resolveFunction_eq_ok.mp resolved
  obtain ⟨member, self⟩ := mem_of_function? found
  rw [List.getElem?_map, Option.map_eq_some_iff]
  constructor
  · intro place
    obtain ⟨tagged, type, name, lookup⟩ := parameterPlace_ok place
    obtain ⟨other, otherMember, otherSelf, listed⟩ :=
      owned.functions.parameterOwners _ _ _ _ ⟨name, lookup⟩
    obtain rfl := owned.functions.entry_unique otherMember member (otherSelf.trans self.symm)
    refine ⟨value.index, listed, ?_⟩
    rw [valueId, ← tagged]
  · rintro ⟨parameter, listed, rfl⟩
    obtain ⟨_, types, _, _, sameLength, each⟩ := owned.functions.parameters entry member
    have inside : position < types.length :=
      sameLength ▸ (List.getElem?_eq_some_iff.mp listed).1
    obtain ⟨name, lookup⟩ := each position parameter _ listed (List.getElem?_eq_getElem inside)
    rw [parameterPlace_of_value rfl lookup, self, functionId, ← home]

/-! ### Reads -/

namespace Bears

variable (bears : context.Bears function parameters map)

include bears

theorem parameterPlace_eq_ok (owned : context.Owned) {value : ValueId} :
    context.parameterPlace value = .ok (function, position) ↔
      parameters[position]? = some value := by
  obtain ⟨entry, resolved, rfl, _⟩ := bears
  exact Context.parameterPlace_eq_ok owned resolved

theorem key_eq (held : map (site, key) = some value) : value.key = key := by
  obtain ⟨entry, _, _, rfl⟩ := bears
  exact AttributeTable.key_of_toMap held

theorem resolveSite_outside (outside : parameters.length ≤ position) :
    context.resolveSite function (.parameter position) =
      .error (.positionOutOfRange position parameters.length) := by
  obtain ⟨entry, resolved, rfl, _⟩ := bears
  rw [List.length_map] at outside ⊢
  exact Context.resolveSite_outside resolved outside

theorem attribute?_eq (fits : site.Fits parameters.length) (key : AttributeKey) :
    context.attribute? function site key = .ok (map (site, key)) := by
  obtain ⟨entry, resolved, rfl, rfl⟩ := bears
  rw [List.length_map] at fits
  unfold attribute?
  rw [resolveSite_of_fits resolved fits]
  rfl

theorem attributesAt_listsAt (fits : site.Fits parameters.length) :
    ∃ values, map.ListsAt site values ∧ context.attributesAt function site = .ok values := by
  obtain ⟨entry, resolved, rfl, rfl⟩ := bears
  rw [List.length_map] at fits
  refine ⟨entry.attributes.listAt site, entry.attributes.listAt_listsAt site, ?_⟩
  unfold attributesAt
  rw [resolveSite_of_fits resolved fits]
  rfl

theorem alignment?_eq (owned : context.Owned) {parameter : ValueId}
    (listed : parameters[position]? = some parameter) :
    ∃ align, context.alignment? parameter = .ok align ∧
      align.map UInt32.toNat =
        Attribute.alignment? (map (.parameter position, .enumerated .alignment)) := by
  have fits : (Site.parameter position).Fits parameters.length :=
    (List.getElem?_eq_some_iff.mp listed).1
  unfold alignment?
  rw [(bears.parameterPlace_eq_ok owned).mpr listed, ok_bind]
  dsimp only
  rw [bears.attribute?_eq fits, ok_bind]
  cases held : map (.parameter position, .enumerated .alignment) with
  | none => exact ⟨none, rfl, rfl⟩
  | some value =>
      cases value with
      | string key text => exact ⟨none, rfl, rfl⟩
      | enumerated kind number =>
          refine ⟨_, rfl, ?_⟩
          by_cases small : number.toNat < UInt32.size
          · have same : number.toUInt32.toNat = number.toNat := Nat.mod_eq_of_lt small
            simp only [Attribute.alignment?, if_pos small, Option.map_some, same]
          · simp only [Attribute.alignment?, if_neg small, Option.map_none]

/-- Nothing but the parameters and the map is listed. -/
theorem attributesAt_eq (same : after.Bears function parameters map) (site : Site) :
    context.attributesAt function site = after.attributesAt function site := by
  by_cases fits : site.Fits parameters.length
  · obtain ⟨entry, resolved, rfl, rfl⟩ := bears
    obtain ⟨other, found, listed, tables⟩ := same
    have fitsOther : site.Fits other.parameters.length := by
      rw [← listed, List.length_map] at fits
      exact fits
    rw [List.length_map] at fits
    unfold attributesAt
    rw [resolveSite_of_fits resolved fits, resolveSite_of_fits found fitsOther, ok_bind, ok_bind,
      AttributeTable.toMap_injective tables]
  · cases site with
    | parameter position =>
        have outside : parameters.length ≤ position := Nat.not_lt.mp fits
        rw [attributesAt_refused (bears.resolveSite_outside outside),
          attributesAt_refused (same.resolveSite_outside outside)]
    | _ => exact absurd trivial fits

end Bears

end Context

end TypedIR
