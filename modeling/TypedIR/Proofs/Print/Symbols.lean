import TypedIR.Print.Module
import TypedIR.Proofs.Ownership.Names
import TypedIR.Proofs.Print.Labels

/-!
Contract: the symbols under which printed code refers to functions.

Owns:
- the symbol of a live function, with a name and without;
- when two functions share a symbol: exactly if one without a name stands at the position that is
  the name of the other;
- how many functions of a module are printed under a symbol;
- where symbols stand in the text: in the head of a function, behind its personality, in a call.

Names of functions are different, and positions are, but a name may be the text of a position.
-/

namespace TypedIR.Context

variable {context : Context} {function first second : ValueRef} {name : String}

/-! ### One symbol -/

/-- What stands behind the at sign for a function with the given name. -/
def symbolName (function : ValueRef) (name : String) : String :=
  if name = "" then toString function else name

theorem symbol_eq (named : context.functionName? function = some name) :
    context.symbol function = "@" ++ symbolName function name := by
  unfold symbol symbolName
  rw [named]
  exact (apply_ite ("@" ++ ·) _ _ _).symm

theorem exists_functionName (owned : context.FunctionsOwned) (live : context.IsFunction function) :
    ∃ name, context.functionName? function = some name := by
  obtain ⟨type, name, held⟩ := (owned.values function).mp live
  exact ⟨name, functionName?_eq_some.mpr ⟨live, _, held, rfl⟩⟩

/-! ### Shared symbols -/

/-- One function has no name, and the other is named as the position of the first. -/
def Shadows (context : Context) (anonymous named : ValueRef) : Prop :=
  context.functionName? anonymous = some "" ∧
    context.functionName? named = some (toString anonymous)

theorem Shadows.symbol_eq (shadows : context.Shadows first second) :
    context.symbol first = context.symbol second := by
  obtain ⟨anonymous, named⟩ := shadows
  have proper : toString first ≠ "" := Nat.repr_ne_empty
  rw [Context.symbol_eq anonymous, Context.symbol_eq named, symbolName, symbolName, if_pos rfl,
    if_neg proper]

/-- Different functions share a symbol exactly if one shadows the other. -/
theorem symbol_eq_iff (owned : context.FunctionsOwned) (distinct : context.DistinctNames)
    (firstLive : context.IsFunction first) (secondLive : context.IsFunction second)
    (apart : first ≠ second) :
    context.symbol first = context.symbol second ↔
      context.Shadows first second ∨ context.Shadows second first := by
  refine ⟨fun same => ?_, ?_⟩
  rotate_left
  · rintro (shadows | shadows)
    · exact shadows.symbol_eq
    · exact shadows.symbol_eq.symm
  obtain ⟨firstName, firstNamed⟩ := exists_functionName owned firstLive
  obtain ⟨secondName, secondNamed⟩ := exists_functionName owned secondLive
  rw [symbol_eq firstNamed, symbol_eq secondNamed, String.append_right_inj, symbolName,
    symbolName] at same
  by_cases firstAnonymous : firstName = "" <;> by_cases secondAnonymous : secondName = ""
  · rw [if_pos firstAnonymous, if_pos secondAnonymous] at same
    exact absurd (Label.toString_injective same) apart
  · rw [if_pos firstAnonymous, if_neg secondAnonymous] at same
    exact .inl ⟨firstAnonymous ▸ firstNamed, same ▸ secondNamed⟩
  · rw [if_neg firstAnonymous, if_pos secondAnonymous] at same
    exact .inr ⟨secondAnonymous ▸ secondNamed, same ▸ firstNamed⟩
  · rw [if_neg firstAnonymous, if_neg secondAnonymous] at same
    exact absurd (distinct first second firstName firstAnonymous firstNamed (same ▸ secondNamed))
      apart

theorem Shadows.live (shadows : context.Shadows first second) :
    context.IsFunction first ∧ context.IsFunction second :=
  ⟨(functionName?_eq_some.mp shadows.1).1, (functionName?_eq_some.mp shadows.2).1⟩

/-- A function with the text of its own position for a name has a name. -/
theorem Shadows.ne (shadows : context.Shadows first second) : first ≠ second := by
  rintro rfl
  exact Nat.repr_ne_empty (Option.some.inj (shadows.2.symm.trans shadows.1))

/-! ### The lines of a module -/

/-- In a list without repetitions an image occurs once exactly if no other element has it. -/
theorem count_map_eq_one {α β : Type} [DecidableEq β] {list : List α} (different : list.Nodup)
    {image : α → β} {item : α} (listed : item ∈ list) :
    (list.map image).count (image item) = 1 ↔
      ∀ other ∈ list, image other = image item → other = item := by
  have counted : (list.map image).count (image item) =
      (list.filter fun other => image other == image item).length := by
    rw [List.count, List.countP_map, List.countP_eq_length_filter]
    rfl
  have member : ∀ other, other ∈ list.filter (fun other => image other == image item) ↔
      other ∈ list ∧ image other = image item := by
    intro other
    rw [List.mem_filter, beq_iff_eq]
  have own := (member item).mpr ⟨listed, rfl⟩
  rw [counted]
  constructor
  · intro one other among same
    obtain ⟨single, equal⟩ := List.length_eq_one_iff.mp one
    have alike := (member other).mpr ⟨among, same⟩
    rw [equal, List.mem_singleton] at own alike
    exact alike.trans own.symm
  · intro alone
    refine Nat.le_antisymm ?_ (List.length_pos_of_mem own)
    have inside : list.filter (fun other => image other == image item) ⊆ [item] := by
      intro other among
      obtain ⟨known, same⟩ := (member other).mp among
      exact List.mem_singleton.mpr (alone other known same)
    exact (List.Nodup.subperm (List.Nodup.filter _ different) inside).length_le

/-- The symbols of the functions of a module, in the order in which their lines are printed. -/
def headSymbols (context : Context) : List String :=
  (context.functions.map fun entry => entry.self).map context.symbol

/-- The symbol of a live function stands in one line alone exactly if the function shadows no
other and no other shadows it. -/
theorem count_headSymbols (owned : context.FunctionsOwned) (distinct : context.DistinctNames)
    (live : context.IsFunction function) :
    context.headSymbols.count (context.symbol function) = 1 ↔
      ∀ other, ¬ context.Shadows function other ∧ ¬ context.Shadows other function := by
  have member : ∀ other, other ∈ context.functions.map (fun entry => entry.self) ↔
      context.IsFunction other := fun _ => List.mem_map
  rw [headSymbols, count_map_eq_one owned.distinct ((member function).mpr live)]
  constructor
  · intro alone other
    constructor
    · intro shadows
      have same := alone other ((member other).mpr shadows.live.2) shadows.symbol_eq.symm
      exact shadows.ne same.symm
    · intro shadows
      have same := alone other ((member other).mpr shadows.live.1) shadows.symbol_eq
      exact shadows.ne same
  · intro clear other listed same
    refine Decidable.byContradiction fun apart => ?_
    rcases (symbol_eq_iff owned distinct ((member other).mp listed) live apart).mp same with
      shadows | shadows
    · exact (clear other).2 shadows
    · exact (clear other).1 shadows

/-! ### Symbols in the text -/

/-- A call is printed with the symbol of its callee. -/
theorem callText_symbol {names : LocalNames} {type : TypeRef} {callee : ValueRef}
    {arguments : List ValueRef} {text : String}
    (printed : context.callText names type callee arguments = .ok text) :
    ∃ front inner,
      text = "call " ++ front ++ " " ++ context.symbol callee ++ "(" ++ inner ++ ")" := by
  obtain ⟨texts, _, printed⟩ := bind_eq_ok.mp printed
  obtain ⟨result, _, printed⟩ := bind_eq_ok.mp printed
  obtain rfl := pure_eq_ok.mp printed
  refine ⟨conventionPrefix (((context.function? callee).map (·.convention)).getD 0) ++ result,
    Text.joined ", " texts, ?_⟩
  simp only [String.append_assoc]

/-- The text of a function begins with its line: the keyword, what is behind it, the symbol of the
function, its parameters and attributes, and the symbol of its personality if it has one. -/
def HeadedBy (context : Context) (entry : FunctionEntry) (text : String) : Prop :=
  ∃ front inner back body, text =
    (if entry.isDefinition then "define " else "declare ") ++ front ++ " " ++
      context.symbol entry.self ++ "(" ++ inner ++ ")" ++ back ++
      (entry.personality.elim "" fun personality =>
        " personality " ++ context.symbol personality) ++ body

theorem headText_headed {entry : FunctionEntry} {names : LocalNames} {text : String}
    (printed : context.headText entry names = .ok text) (body : String) :
    context.HeadedBy entry (text ++ body) := by
  obtain ⟨⟨result, variadic⟩, _, printed⟩ := bind_eq_ok.mp printed
  obtain ⟨parameters, _, printed⟩ := bind_eq_ok.mp printed
  obtain ⟨type, _, printed⟩ := bind_eq_ok.mp printed
  obtain rfl := pure_eq_ok.mp printed
  refine ⟨conventionPrefix entry.convention ++ attributePrefix entry .ret ++ type,
    Text.joined ", " (if variadic then parameters ++ ["..."] else parameters),
    attributeSuffix entry .function ++
      (entry.collector.elim "" fun strategy => " gc \"" ++ strategy ++ "\""), body, ?_⟩
  cases entry.collector <;> cases entry.personality <;>
    simp only [String.append_assoc, Option.elim]

theorem functionText_headed {entry : FunctionEntry} {text : String}
    (printed : context.functionText entry = .ok text) : context.HeadedBy entry text := by
  obtain ⟨names, _, printed⟩ := bind_eq_ok.mp printed
  obtain ⟨head, headed, printed⟩ := bind_eq_ok.mp printed
  by_cases defined : entry.isDefinition = true
  · rw [if_pos defined] at printed
    obtain ⟨blocks, _, printed⟩ := bind_eq_ok.mp printed
    obtain rfl := pure_eq_ok.mp printed
    have parts := headText_headed headed (" \x7b\n" ++ Text.joined "\n" blocks ++ "\x7d\n")
    simpa only [String.append_assoc] using parts
  · rw [if_neg defined] at printed
    obtain rfl := pure_eq_ok.mp printed
    exact headText_headed headed "\n"

end TypedIR.Context
