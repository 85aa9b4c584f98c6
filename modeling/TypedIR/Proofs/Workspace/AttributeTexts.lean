import TypedIR.Proofs.Print.Attributes
import TypedIR.Proofs.Workspace.Reachable

/-!
Contract: whether attributes can be told from a printed function.

Owns:
- for a site with string attributes only, which sites with other ones share its text: none if no
  key or value on either side holds a double quote, and without that condition on the other side
  none exactly if there is but a key without a value, or nothing;
- a run with two functions that are printed alike, whose attributes differ.

Does not own: attributes that have a kind.
-/

namespace TypedIR

namespace FunctionEntry

/-- All attributes at the site are pairs of strings. -/
def OnlyStrings (entry : FunctionEntry) (site : Site) : Prop :=
  Attribute.OnlyStrings (entry.attributes.listAt site)

/-- They are, and none of the strings holds a double quote. -/
def Unquoted (entry : FunctionEntry) (site : Site) : Prop :=
  ∀ value ∈ entry.attributes.listAt site, value.Unquoted

/-- There are several attributes at the site, or one with a value. -/
def Compound (entry : FunctionEntry) (site : Site) : Prop :=
  2 ≤ (entry.attributes.listAt site).length ∨
    ∃ key text, text ≠ "" ∧ Attribute.string key text ∈ entry.attributes.listAt site

variable {entry other : FunctionEntry} {site otherSite : Site}

theorem Unquoted.onlyStrings (unquoted : entry.Unquoted site) : entry.OnlyStrings site := by
  intro value member
  cases value with
  | enumerated => exact (unquoted _ member).elim
  | string => rfl

/-- The function with this attribute at the site, too. -/
def withAttribute (entry : FunctionEntry) (site : Site) (value : Attribute) : FunctionEntry :=
  { entry with attributes := entry.attributes.insert site value }

theorem attributeText_eq_iff (strings : entry.OnlyStrings site)
    (otherStrings : other.OnlyStrings otherSite) :
    other.attributeText otherSite = entry.attributeText site ↔
      Attribute.spaced (other.attributes.listAt otherSite) =
        Attribute.spaced (entry.attributes.listAt site) :=
  Attribute.joined_eq_iff otherStrings strings

theorem OnlyStrings.simple (strings : entry.OnlyStrings site) (simple : ¬ entry.Compound site) :
    entry.attributes.listAt site = [] ∨
      ∃ key, entry.attributes.listAt site = [.string key ""] := by
  obtain ⟨few, plain⟩ := not_or.mp simple
  match values : entry.attributes.listAt site with
  | [] => exact .inl rfl
  | [value] =>
      have member : value ∈ entry.attributes.listAt site := by simp [values]
      obtain ⟨key, text, rfl⟩ := Attribute.OnlyStrings.eq_string strings member
      obtain rfl : text = "" := Decidable.byContradiction fun shown =>
        plain ⟨key, text, shown, member⟩
      exact .inr ⟨key, rfl⟩
  | _ :: _ :: _ =>
      rw [values] at few
      simp only [List.length_cons] at few
      omega

theorem Compound.ne_key (compound : entry.Compound site) (key : String) :
    entry.attributes.listAt site ≠ [.string key ""] := by
  intro values
  rcases compound with several | ⟨otherKey, text, shown, member⟩
  · rw [values, List.length_singleton] at several
    omega
  · rw [values, List.mem_singleton] at member
    exact shown (Attribute.string.inj member).2

/-- What the text of the attributes at a site tells about them. -/
structure TellsStrings (entry : FunctionEntry) (site : Site) : Prop where
  placed :
    Context.attributePrefix entry site =
        (if entry.attributes.listAt site = [] then "" else entry.attributeText site ++ " ") ∧
      Context.attributeSuffix entry site =
        (if entry.attributes.listAt site = [] then "" else " " ++ entry.attributeText site)
  same : ∀ other otherSite, entry.SameAttributes site other otherSite →
    other.attributeText otherSite = entry.attributeText site
  unquoted : entry.Unquoted site → ∀ other otherSite, other.Unquoted otherSite →
    (other.attributeText otherSite = entry.attributeText site ↔
      entry.SameAttributes site other otherSite)
  /-- Nothing, or a key without a value, is told from whatever strings there may be. -/
  simple : entry.Unquoted site → ¬ entry.Compound site →
    ∀ other otherSite, other.OnlyStrings otherSite →
      (other.attributeText otherSite = entry.attributeText site ↔
        entry.SameAttributes site other otherSite)
  /-- Everything else is printed like a key, which any function may be given instead. -/
  shared : entry.Compound site → ∃ key, ∀ (other : FunctionEntry) otherSite,
    other.attributes.listAt otherSite = [] →
      (other.withAttribute otherSite (.string key "")).OnlyStrings otherSite ∧
        (other.withAttribute otherSite (.string key "")).attributeText otherSite =
          entry.attributeText site ∧
        ¬ entry.SameAttributes site (other.withAttribute otherSite (.string key "")) otherSite

/-- Sites with the same string attributes are printed alike, and those without double quotes in the
strings only then. But several attributes, or a value, are printed like a single key that holds the
quotes between them. -/
theorem string_attributes_told (entry : FunctionEntry) (site : Site)
    (strings : entry.OnlyStrings site) : entry.TellsStrings site where
  placed := ⟨attributePrefix_eq entry site, attributeSuffix_eq entry site⟩
  same := by
    intro other otherSite same
    rw [attributeText, attributeText, sameAttributes_iff.mp same]
  unquoted := by
    intro unquoted other otherSite otherUnquoted
    rw [attributeText_eq_iff strings otherUnquoted.onlyStrings, sameAttributes_iff]
    constructor
    · exact fun same => (Attribute.spaced_inj otherUnquoted unquoted same).symm
    · exact fun same => by rw [same]
  simple := by
    intro unquoted simple other otherSite otherStrings
    rw [attributeText_eq_iff strings otherStrings, sameAttributes_iff]
    refine ⟨fun same => ?_, fun same => by rw [same]⟩
    rcases strings.simple simple with none | ⟨key, single⟩
    · rw [none] at same ⊢
      cases values : other.attributes.listAt otherSite with
      | nil => rfl
      | cons value rest => simp [values] at same
    · have outside := (unquoted (.string key "") (by simp [single])).1
      rw [single] at same ⊢
      exact (Attribute.eq_key_of_spaced otherStrings outside same).symm
  shared := by
    intro compound
    have inhabited : entry.attributes.listAt site ≠ [] := by
      intro none
      rcases compound with several | ⟨_, _, _, member⟩
      · simp [none] at several
      · simp [none] at member
    obtain ⟨key, spaced⟩ := Attribute.exists_key_spaced strings inhabited
    refine ⟨key, fun other otherSite bare => ?_⟩
    have single : (other.withAttribute otherSite (.string key "")).attributes.listAt otherSite =
        [.string key ""] := AttributeTable.listAt_insert_of_nil bare _
    have only : (other.withAttribute otherSite (.string key "")).OnlyStrings otherSite := by
      intro value member
      rw [single, List.mem_singleton] at member
      rw [member]
      rfl
    refine ⟨only, ?_, fun same => ?_⟩
    · rw [attributeText_eq_iff strings only, single, spaced]
    · exact compound.ne_key key ((sameAttributes_iff.mp same).trans single)

end FunctionEntry

namespace Workspace

/-- Two functions, one with a key and a value, the other one with a key that holds both and the
quotes between them. -/
def quotingRun : List Command :=
  let context : ContextId := ⟨0, 0⟩
  [.createContext "quoting",
    .edit (.voidType context),
    .edit (.signatureType ⟨context, 0⟩ [] false),
    .edit (.declare context "f" ⟨context, 1⟩),
    .edit (.declare context "g" ⟨context, 1⟩),
    .edit (.addAttribute ⟨context, 0⟩ .function (.string "a" "b")),
    .edit (.addAttribute ⟨context, 1⟩ .function (.string "a\"=\"b" ""))]

theorem quotingRun_seen :
    ∃ context f g,
      (afterAll Engine.reference (start .standard .start) quotingRun).store.context? ⟨0, 0⟩ =
        some context ∧
      context.function? 0 = some f ∧ context.function? 1 = some g ∧
      f.attributes.listAt .function = [.string "a" "b"] ∧
      g.attributes.listAt .function = [.string "a\"=\"b" ""] ∧
      context.functionText f = .ok "declare void @f() \"a\"=\"b\"\n" ∧
      context.functionText g = .ok "declare void @g() \"a\"=\"b\"\n" := by
  have seen : ((afterAll Engine.reference (start .standard .start) quotingRun).store.context?
      ⟨0, 0⟩).map (fun context => [0, 1].map fun function => (context.function? function).map
        fun entry => (entry.attributes.listAt .function, context.functionText entry)) =
      some [some ([.string "a" "b"], .ok "declare void @f() \"a\"=\"b\"\n"),
        some ([.string "a\"=\"b" ""], .ok "declare void @g() \"a\"=\"b\"\n")] := by
    decide +kernel
  obtain ⟨context, found, each⟩ := Option.map_eq_some_iff.mp seen
  simp only [List.map_cons, List.map_nil, List.cons.injEq, and_true, Option.map_eq_some_iff,
    Prod.mk.injEq] at each
  obtain ⟨⟨f, first, fListed, fText⟩, g, second, gListed, gText⟩ := each
  exact ⟨context, f, g, found, first, second, fListed, gListed, fText, gText⟩

/-- The functions of the run differ in their attributes, and not in what is printed of these. -/
theorem quotingRun_shared :
    ∃ context f g,
      (afterAll Engine.reference (start .standard .start) quotingRun).store.context? ⟨0, 0⟩ =
        some context ∧
      context.function? 0 = some f ∧ context.function? 1 = some g ∧
      f.OnlyStrings .function ∧ g.OnlyStrings .function ∧
      g.attributeText .function = f.attributeText .function ∧
      ¬ f.SameAttributes .function g .function ∧
      context.functionText f = .ok "declare void @f() \"a\"=\"b\"\n" ∧
      context.functionText g = .ok "declare void @g() \"a\"=\"b\"\n" := by
  obtain ⟨context, f, g, found, first, second, fListed, gListed, fText, gText⟩ := quotingRun_seen
  refine ⟨context, f, g, found, first, second, ?_, ?_, ?_, ?_, fText, gText⟩
  · rw [FunctionEntry.OnlyStrings, fListed]
    decide
  · rw [FunctionEntry.OnlyStrings, gListed]
    decide
  · rw [FunctionEntry.attributeText, FunctionEntry.attributeText, fListed, gListed]
    decide
  · rw [FunctionEntry.sameAttributes_iff, fListed, gListed]
    decide

/-- No text without further quotes is that of the first function but for its own attribute. -/
theorem quotingRun_told :
    ∃ context f,
      (afterAll Engine.reference (start .standard .start) quotingRun).store.context? ⟨0, 0⟩ =
        some context ∧
      context.function? 0 = some f ∧ f.OnlyStrings .function ∧ f.TellsStrings .function ∧
      f.Compound .function ∧
      ∀ (other : FunctionEntry) otherSite, other.Unquoted otherSite →
        (other.attributeText otherSite = "\"a\"=\"b\"" ↔
          other.attributes.listAt otherSite = [.string "a" "b"]) := by
  obtain ⟨context, f, _, found, first, _, listed, _⟩ := quotingRun_seen
  have unquoted : f.Unquoted .function := by
    rw [FunctionEntry.Unquoted, listed]
    decide
  have told := FunctionEntry.string_attributes_told f .function unquoted.onlyStrings
  have text : f.attributeText .function = "\"a\"=\"b\"" := by
    rw [FunctionEntry.attributeText, listed]
    decide
  refine ⟨context, f, found, first, unquoted.onlyStrings, told,
    .inr ⟨"a", "b", by decide, by simp [listed]⟩, fun other otherSite otherUnquoted => ?_⟩
  have exact := told.unquoted unquoted other otherSite otherUnquoted
  rw [text, FunctionEntry.sameAttributes_iff, listed] at exact
  exact exact.trans eq_comm

end Workspace

end TypedIR
