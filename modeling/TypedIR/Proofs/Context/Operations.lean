import TypedIR.Context.Attributes
import TypedIR.Proofs.Context.Change

/-!
Contract: what each operation inside a context does when it succeeds.

Owns: one lemma for each operation. It says that the handles the operation was
given are live in the context, and which elementary changes lead to the result.

Does not own: refusals, which change nothing.
-/

namespace TypedIR.Context

variable {settings : Settings} {context after : Context}

/-! ### Types -/

theorem requireSized_eq_ok {type : TypeId} {result : Unit} :
    context.requireSized type = .ok result ↔
      type.context = context.id ∧ SizedBy context.shape? type.index := by
  unfold requireSized SizedBy
  simp only [bind_eq_ok, resolveType_eq_ok, ite_throw_eq_ok, pure_eq_ok]
  constructor
  · rintro ⟨shape, ⟨home, known⟩, sized, _⟩
    exact ⟨home, shape, known, sized⟩
  · rintro ⟨home, shape, known, sized⟩
    exact ⟨shape, ⟨home, known⟩, sized, trivial⟩

theorem forM_requireSized_eq_ok {types : List TypeId} {result : Unit} :
    types.forM context.requireSized = .ok result ↔
      ∀ type ∈ types, type.context = context.id ∧ SizedBy context.shape? type.index := by
  rw [forM_eq_ok]
  exact forall₂_congr fun type _ => requireSized_eq_ok

theorem integerType_ok {bits : UInt32} {type : TypeId}
    (done : context.integerType settings bits = .ok (type, after)) :
    Interned settings context (.integer bits) type after := by
  unfold integerType at done
  simp only [bind_eq_ok, pure_eq_ok] at done
  obtain ⟨⟨⟩, fits, equal⟩ := done
  obtain ⟨rfl, rfl⟩ := Prod.mk.inj equal
  exact intern_interned fits

theorem arrayType_ok (settings : Settings) {element type : TypeId} {length : UInt32}
    (done : context.arrayType element length = .ok (type, after)) :
    context.Live (.type element) ∧ SizedBy context.shape? element.index ∧
      Interned settings context (.array element.index length) type after := by
  unfold arrayType at done
  simp only [bind_eq_ok, pure_eq_ok, requireSized_eq_ok] at done
  obtain ⟨_, ⟨home, sized⟩, equal⟩ := done
  obtain ⟨rfl, rfl⟩ := Prod.mk.inj equal
  exact ⟨sized.live home, sized, intern_interned sized⟩

theorem structType_ok (settings : Settings) {fields : List TypeId} {packed : Bool} {type : TypeId}
    (done : context.structType fields packed = .ok (type, after)) :
    (∀ field ∈ fields, context.Live (.type field) ∧ SizedBy context.shape? field.index) ∧
      Interned settings context (.struct (fields.map (·.index)) packed) type after := by
  unfold structType at done
  simp only [bind_eq_ok, pure_eq_ok, forM_requireSized_eq_ok] at done
  obtain ⟨_, sized, equal⟩ := done
  obtain ⟨rfl, rfl⟩ := Prod.mk.inj equal
  refine ⟨fun field listed => ⟨(sized field listed).2.live (sized field listed).1,
    (sized field listed).2⟩, intern_interned ?_⟩
  intro position member
  obtain ⟨field, listed, rfl⟩ := List.mem_map.mp member
  exact (sized field listed).2

theorem signatureType_ok {result type : TypeId} {parameters : List TypeId} {variadic : Bool}
    (done : context.signatureType result parameters variadic = .ok (type, after)) :
    context.Live (.type result) ∧ (∀ parameter ∈ parameters, context.Live (.type parameter)) ∧
      Interned settings context (.function result.index (parameters.map (·.index)) variadic)
        type after := by
  unfold signatureType at done
  simp only [bind_eq_ok, resolveType_eq_ok, ite_throw_eq_ok, pure_eq_ok,
    forM_requireSized_eq_ok] at done
  obtain ⟨shape, ⟨home, known⟩, returned, _, sized, equal⟩ := done
  obtain ⟨rfl, rfl⟩ := Prod.mk.inj equal
  refine ⟨⟨home, shape, known⟩, fun parameter listed =>
    (sized parameter listed).2.live (sized parameter listed).1, intern_interned ⟨?_, ?_⟩⟩
  · rcases Bool.or_eq_true_iff.mp returned with isSized | isVoid
    · exact .inl ⟨shape, known, isSized⟩
    · right
      cases shape <;> simp_all [TypeShape.isVoid]
  · intro position member
    obtain ⟨parameter, listed, rfl⟩ := List.mem_map.mp member
    exact (sized parameter listed).2

/-! ### Constants -/

theorem isConstantOf_eq {before after : Context} (values : after.value? = before.value?) :
    after.IsConstantOf = before.IsConstantOf := by
  funext value type
  rw [IsConstantOf, IsConstantOf, values]

theorem pushConstant_changes {type : TypeId} {kind : ValueKind}
    (formed : context.FormsConstant type.index kind) :
    Changes settings .plain context (context.pushConstant type kind).2 :=
  .single (.constant type.index kind formed)

theorem integerConstant_ok {type : TypeId} {number : Int64} {value : ValueId}
    (done : context.integerConstant type number = .ok (value, after)) :
    context.Live (.type type) ∧ Changes settings .plain context after := by
  unfold integerConstant at done
  simp only [bind_eq_ok, resolveType_eq_ok] at done
  obtain ⟨shape, ⟨home, known⟩, done⟩ := done
  cases shape with
  | integer bits =>
      obtain ⟨rfl, rfl⟩ := Prod.mk.inj (pure_eq_ok.mp done)
      exact ⟨⟨home, _, known⟩, pushConstant_changes ⟨bits, known, number, rfl⟩⟩
  | _ => exact (throw_eq_ok.mp done).elim

theorem requireConstant_eq_ok {value : ValueId} {entry : Value} :
    context.requireConstant value = .ok entry ↔
      value.context = context.id ∧ context.value? value.index = some entry ∧
        entry.kind.isConstant = true := by
  unfold requireConstant
  simp only [bind_eq_ok, resolveValue_eq_ok, ite_throw_eq_ok, pure_eq_ok]
  constructor
  · rintro ⟨found, ⟨home, lookup⟩, constant, rfl⟩
    exact ⟨home, lookup, constant⟩
  · rintro ⟨home, lookup, constant⟩
    exact ⟨entry, ⟨home, lookup⟩, constant, rfl⟩

theorem requireConstantOf_eq_ok {type : TypeId} {value : ValueId} {result : Unit} :
    context.requireConstantOf type value = .ok result ↔
      value.context = context.id ∧ context.IsConstantOf value.index type.index := by
  unfold requireConstantOf IsConstantOf
  simp only [bind_eq_ok, requireConstant_eq_ok, ite_throw_eq_ok, pure_eq_ok]
  constructor
  · rintro ⟨entry, ⟨home, lookup, constant⟩, same, _⟩
    exact ⟨home, entry, lookup, same, constant⟩
  · rintro ⟨home, entry, lookup, same, constant⟩
    exact ⟨entry, ⟨home, lookup, constant⟩, same, trivial⟩

theorem lengthOf_eq_ok {count : Nat} {length : UInt32} (done : lengthOf count = .ok length) :
    length.toNat = count := by
  unfold lengthOf at done
  by_cases fits : count < UInt32.size
  · rw [if_pos fits] at done
    cases done
    exact UInt32.toNat_ofNat_of_lt fits
  · rw [if_neg fits] at done
    cases done

theorem arrayConstant_ok {element : TypeId} {values : List ValueId} {value : ValueId}
    (done : context.arrayConstant element values = .ok (value, after)) :
    context.Live (.type element) ∧ (∀ part ∈ values, context.Live (.value part)) ∧
      Changes settings .plain context after := by
  unfold arrayConstant at done
  simp only [bind_eq_ok, resolveType_eq_ok, forM_eq_ok, requireConstantOf_eq_ok, pure_eq_ok,
    Prod.exists] at done
  obtain ⟨length, counted, _, _, _, parts, type, between, built, equal⟩ := done
  obtain ⟨rfl, rfl⟩ := Prod.mk.inj equal
  obtain ⟨live, sized, interned⟩ := arrayType_ok settings built
  have partsLive : ∀ part ∈ values, context.Live (.value part) := by
    intro part member
    obtain ⟨home, entry, found, _⟩ := parts part member
    exact ⟨home, entry, found⟩
  refine ⟨live, partsLive, interned.changes.trans ?_⟩
  refine pushConstant_changes ⟨element.index, length, interned.known, ?_, ?_, ?_⟩
  · rw [List.length_map, lengthOf_eq_ok counted]
  · exact sized.mono interned.kept
  · intro position member
    obtain ⟨part, listed, rfl⟩ := List.mem_map.mp member
    rw [isConstantOf_eq interned.values]
    exact (parts part listed).2

theorem bytesConstant_ok {content : List UInt8} {terminated : Bool} {value : ValueId}
    (done : context.bytesConstant settings content terminated = .ok (value, after)) :
    Changes settings .plain context after := by
  unfold bytesConstant at done
  simp only [bind_eq_ok, pure_eq_ok, Prod.exists] at done
  obtain ⟨length, counted, byte, narrow, isByte, type, between, built, equal⟩ := done
  obtain ⟨rfl, rfl⟩ := Prod.mk.inj equal
  have byteInterned := integerType_ok isByte
  obtain ⟨_, _, interned⟩ := arrayType_ok settings built
  refine (byteInterned.changes.trans interned.changes).trans (pushConstant_changes ?_)
  exact ⟨byte.index, length, interned.known, (lengthOf_eq_ok counted).symm,
    interned.kept _ _ byteInterned.known⟩

theorem structConstant_ok {values : List ValueId} {packed : Bool} {value : ValueId}
    (done : context.structConstant values packed = .ok (value, after)) :
    (∀ part ∈ values, context.Live (.value part)) ∧ Changes settings .plain context after := by
  unfold structConstant at done
  simp only [bind_eq_ok, mapM_eq_ok, requireConstant_eq_ok, pure_eq_ok, Prod.exists] at done
  obtain ⟨entries, parts, type, between, built, equal⟩ := done
  obtain ⟨rfl, rfl⟩ := Prod.mk.inj equal
  obtain ⟨sized, interned⟩ := structType_ok settings built
  have found : List.Forall₂ (fun part entry => context.Live (.value part) ∧
      context.value? part.index = some entry ∧ entry.kind.isConstant = true) values entries :=
    parts.imp fun part entry ⟨home, lookup, constant⟩ => ⟨⟨home, entry, lookup⟩, lookup, constant⟩
  obtain ⟨live, constants⟩ := (List.forall₂_and_left _ _).mp found
  constructor
  · exact live
  · refine interned.changes.trans (pushConstant_changes ?_)
    refine ⟨_, packed, interned.known, ?_, ?_⟩
    · intro position member
      obtain ⟨field, listed, rfl⟩ := List.mem_map.mp member
      exact (sized field listed).2.mono interned.kept
    · rw [isConstantOf_eq interned.values, List.map_map, List.forall₂_map_left_iff,
        List.forall₂_map_right_iff]
      apply constants.imp
      intro part entry constant
      exact ⟨entry, constant.1, rfl, constant.2⟩

theorem undefined_ok {type : TypeId} {value : ValueId}
    (done : context.undefined type = .ok (value, after)) :
    context.Live (.type type) ∧ Changes settings .plain context after := by
  unfold undefined at done
  simp only [bind_eq_ok, requireSized_eq_ok, pure_eq_ok] at done
  obtain ⟨_, ⟨home, sized⟩, equal⟩ := done
  obtain ⟨rfl, rfl⟩ := Prod.mk.inj equal
  exact ⟨sized.live home, pushConstant_changes sized⟩

/-! ### Functions -/

theorem declare_ok {name : String} {signature : TypeId} {function : FunctionId}
    (done : context.declare settings name signature = .ok (function, after)) :
    context.Live (.type signature) ∧ Changes settings .plain context after := by
  unfold declare at done
  simp only [bind_eq_ok, resolveType_eq_ok] at done
  obtain ⟨shape, ⟨home, known⟩, done⟩ := done
  cases shape with
  | function result parameters variadic =>
      simp only [ite_throw_bind_eq_ok, pure_eq_ok, Bool.not_eq_true, Option.isSome_eq_false_iff,
        Option.isNone_iff_eq_none] at done
      obtain ⟨free, equal⟩ := done
      obtain ⟨rfl, rfl⟩ := Prod.mk.inj equal
      exact ⟨⟨home, _, known⟩, .single (.declare name known free)⟩
  | _ => exact (throw_eq_ok.mp done).elim

theorem rename_ok {value : ValueId} {name : String} {result : Unit}
    (done : context.rename value name = .ok (result, after)) :
    context.Live (.value value) ∧ Changes settings (.rename value.index) context after := by
  unfold rename at done
  simp only [bind_eq_ok, resolveValue_eq_ok, ite_throw_bind_eq_ok, pure_eq_ok] at done
  obtain ⟨entry, ⟨home, found⟩, free, equal⟩ := done
  obtain ⟨rfl, rfl⟩ := Prod.mk.inj equal
  refine ⟨⟨home, entry, found⟩, .single (.rename name found ?_)⟩
  intro isFunction holder held
  refine Decidable.byContradiction fun other => free ⟨isFunction, ?_⟩
  simp [held, other]

theorem appendBlock_ok {function : FunctionId} {name : String} {block : BlockId}
    (done : context.appendBlock function name = .ok (block, after)) :
    context.Live (.function function) ∧ Changes settings .plain context after := by
  unfold appendBlock at done
  simp only [bind_eq_ok, resolveFunction_eq_ok, pure_eq_ok] at done
  obtain ⟨entry, ⟨home, found⟩, equal⟩ := done
  obtain ⟨rfl, rfl⟩ := Prod.mk.inj equal
  exact ⟨⟨home, entry, found⟩, .single (.block name found)⟩

theorem editFunction_ok {function : FunctionId} {change : FunctionEntry → FunctionEntry}
    {result : Unit} (done : context.editFunction function change = .ok (result, after))
    (frame : ∀ entry : FunctionEntry, entry.SameFrame (change entry))
    (personality : ∀ (entry : FunctionEntry) personality,
      (change entry).personality = some personality →
        entry.personality = some personality ∨ context.IsFunction personality) :
    context.Live (.function function) ∧ Changes settings .plain context after := by
  unfold editFunction at done
  simp only [bind_eq_ok, resolveFunction_eq_ok, pure_eq_ok] at done
  obtain ⟨entry, ⟨home, found⟩, equal⟩ := done
  obtain ⟨_, rfl⟩ := Prod.mk.inj equal
  exact ⟨⟨home, entry, found⟩, .single (.configure change found frame personality)⟩

theorem setConvention_ok {accepts : UInt32 → Bool} {engine : String} {function : FunctionId}
    {code : UInt32} {result : Unit}
    (done : context.setConvention accepts engine function code = .ok (result, after)) :
    context.Live (.function function) ∧ Changes settings .plain context after := by
  unfold setConvention at done
  simp only [bind_eq_ok, ite_throw_eq_ok] at done
  obtain ⟨_, _, _, done⟩ := done
  exact editFunction_ok done (fun _ => ⟨⟨rfl, rfl, rfl⟩, rfl⟩) fun _ _ same => .inl same

theorem setPersonality_ok {function personality : FunctionId} {result : Unit}
    (done : context.setPersonality function personality = .ok (result, after)) :
    context.Live (.function function) ∧ context.Live (.function personality) ∧
      Changes settings .plain context after := by
  unfold setPersonality at done
  simp only [bind_eq_ok, resolveFunction_eq_ok] at done
  obtain ⟨other, ⟨home, found⟩, done⟩ := done
  have live : context.IsFunction personality.index :=
    ⟨other, (mem_of_function? found).1, (mem_of_function? found).2⟩
  have edited : context.Live (.function function) ∧ Changes settings .plain context after :=
    editFunction_ok done (fun _ => ⟨⟨rfl, rfl, rfl⟩, rfl⟩) fun _ _ same =>
      .inr (Option.some.inj same ▸ live)
  exact ⟨edited.1, ⟨home, other, found⟩, edited.2⟩

theorem clearPersonality_ok {function : FunctionId} {result : Unit}
    (done : context.clearPersonality function = .ok (result, after)) :
    context.Live (.function function) ∧ Changes settings .plain context after :=
  editFunction_ok done (fun _ => ⟨⟨rfl, rfl, rfl⟩, rfl⟩) fun _ _ same => by cases same

theorem setCollector_ok {function : FunctionId} {strategy : String} {result : Unit}
    (done : context.setCollector function strategy = .ok (result, after)) :
    context.Live (.function function) ∧ Changes settings .plain context after :=
  editFunction_ok done (fun _ => ⟨⟨rfl, rfl, rfl⟩, rfl⟩) fun _ _ same => .inl same

theorem deleteFunction_done {function : FunctionId} {result : Unit}
    (done : context.deleteFunction function = .ok (result, after)) :
    function.context = context.id ∧ ∃ entry, context.function? function.index = some entry ∧
      after = context.withoutFunction entry := by
  unfold deleteFunction at done
  simp only [bind_eq_ok, resolveFunction_eq_ok, pure_eq_ok] at done
  obtain ⟨entry, ⟨home, found⟩, equal⟩ := done
  obtain ⟨_, rfl⟩ := Prod.mk.inj equal
  refine ⟨home, entry, found, ?_⟩
  rw [withoutFunction, (mem_of_function? found).2]

theorem deleteFunction_ok {function : FunctionId} {result : Unit}
    (done : context.deleteFunction function = .ok (result, after)) :
    context.Live (.function function) ∧ Changes settings .plain context after := by
  obtain ⟨home, entry, found, rfl⟩ := deleteFunction_done done
  exact ⟨⟨home, entry, found⟩, .single (.delete found)⟩

/-! ### Attributes -/

theorem resolveSite_ok {function : FunctionId} {site : Site} {entry : FunctionEntry}
    (done : context.resolveSite function site = .ok entry) :
    function.context = context.id ∧ context.function? function.index = some entry := by
  unfold resolveSite at done
  simp only [bind_eq_ok, resolveFunction_eq_ok, pure_eq_ok] at done
  obtain ⟨found, lookup, _, _, rfl⟩ := done
  exact lookup

theorem addAttribute_ok {function : FunctionId} {site : Site} {value : Attribute} {result : Unit}
    (done : context.addAttribute function site value = .ok (result, after)) :
    context.Live (.function function) ∧ Changes settings .plain context after := by
  unfold addAttribute at done
  simp only [bind_eq_ok] at done
  obtain ⟨_, _, done⟩ := done
  exact editFunction_ok done (fun _ => ⟨⟨rfl, rfl, rfl⟩, rfl⟩) fun _ _ same => .inl same

theorem removeAttribute_ok {function : FunctionId} {site : Site} {key : AttributeKey}
    {result : Unit} (done : context.removeAttribute function site key = .ok (result, after)) :
    context.Live (.function function) ∧ Changes settings .plain context after := by
  unfold removeAttribute at done
  simp only [bind_eq_ok] at done
  obtain ⟨entry, found, done⟩ := done
  by_cases present : (entry.attributes.get? site key).isSome
  · rw [if_pos present] at done
    exact editFunction_ok done (fun _ => ⟨⟨rfl, rfl, rfl⟩, rfl⟩) fun _ _ same => .inl same
  · rw [if_neg present] at done
    obtain ⟨_, rfl⟩ := Prod.mk.inj (pure_eq_ok.mp done)
    obtain ⟨home, lookup⟩ := resolveSite_ok found
    exact ⟨⟨home, entry, lookup⟩, .refl⟩

theorem parameterPlace_ok {value : ValueId} {function : FunctionId} {position : Nat}
    (done : context.parameterPlace value = .ok (function, position)) :
    value.context = context.id ∧ ∃ type name, context.value? value.index =
      some ⟨type, .parameter function.index position, name⟩ := by
  unfold parameterPlace at done
  simp only [bind_eq_ok, resolveValue_eq_ok] at done
  obtain ⟨entry, ⟨home, found⟩, done⟩ := done
  obtain ⟨type, kind, name⟩ := entry
  cases kind with
  | parameter owner index =>
      obtain ⟨rfl, rfl⟩ := Prod.mk.inj (pure_eq_ok.mp done)
      exact ⟨home, type, name, found⟩
  | _ => exact (throw_eq_ok.mp done).elim

theorem setAlignment_ok {value : ValueId} {align : UInt32} {result : Unit}
    (done : context.setAlignment value align = .ok (result, after)) :
    context.Live (.value value) ∧ Changes settings .plain context after := by
  unfold setAlignment at done
  simp only [bind_eq_ok, Prod.exists, ite_throw_eq_ok] at done
  obtain ⟨function, position, place, _, done⟩ := done
  obtain ⟨home, _, _, found⟩ := parameterPlace_ok place
  exact ⟨⟨home, _, found⟩, (addAttribute_ok done).2⟩

end TypedIR.Context
