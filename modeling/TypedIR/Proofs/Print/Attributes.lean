import TypedIR.Print.Module
import TypedIR.Proofs.Attribute.Table

/-!
Contract: what the printed string attributes of a function tell about them.

Owns:
- the text of the attributes at one site, and where it stands in a printed function;
- that it tells strings without double quotes apart from each other;
- the sites whose text is also that of other attributes. Keys and values are printed as they are,
  so a key can hold the text of a whole list.

Does not own: attributes that have a kind.
-/

namespace TypedIR

/-! ### One attribute -/

namespace Attribute

variable {key value otherKey otherValue : String} {left right behind otherBehind : List Char}

/-- What stands behind the key. -/
def valueText (value : String) : List Char :=
  if value = "" then [] else '=' :: '"' :: (value.toList ++ ['"'])

theorem toList_text_string :
    (Attribute.string key value).text.toList =
      '"' :: (key.toList ++ '"' :: valueText value) := by
  by_cases blank : value = ""
  · simp [text, valueText, blank]
  · simp [text, valueText, blank]

/-- A quote ends a text that holds none. -/
theorem append_quote_inj (outside : '"' ∉ left) (otherOutside : '"' ∉ right)
    (same : left ++ '"' :: behind = right ++ '"' :: otherBehind) :
    left = right ∧ behind = otherBehind := by
  induction left generalizing right with
  | nil =>
      cases right with
      | nil => exact ⟨rfl, (List.cons.inj same).2⟩
      | cons first right =>
          exact absurd ((List.cons.inj same).1 ▸ List.mem_cons_self) otherOutside
  | cons first left inductionHypothesis =>
      cases right with
      | nil => exact absurd ((List.cons.inj same).1 ▸ List.mem_cons_self) outside
      | cons other right =>
          obtain ⟨rfl, rest⟩ := List.cons.inj same
          obtain ⟨rfl, tails⟩ := inductionHypothesis (fun member => outside (.tail _ member))
            (fun member => otherOutside (.tail _ member)) rest
          exact ⟨rfl, tails⟩

/-- A pair of strings, neither of which holds a double quote. -/
def Unquoted : Attribute → Prop
  | .enumerated _ _ => False
  | .string key value => '"' ∉ key.toList ∧ '"' ∉ value.toList

instance : (value : Attribute) → Decidable value.Unquoted
  | .enumerated _ _ => .isFalse id
  | .string _ _ => instDecidableAnd

/-- Without quotes in the strings, an attribute can be read off in front of what is no value. -/
theorem text_append_inj (unquoted : (Attribute.string key value).Unquoted)
    (otherUnquoted : (Attribute.string otherKey otherValue).Unquoted)
    (clear : behind.head? ≠ some '=') (otherClear : otherBehind.head? ≠ some '=')
    (same : (Attribute.string key value).text.toList ++ behind =
      (Attribute.string otherKey otherValue).text.toList ++ otherBehind) :
    Attribute.string key value = .string otherKey otherValue ∧ behind = otherBehind := by
  simp only [toList_text_string, List.cons_append, List.append_assoc] at same
  obtain ⟨keys, rest⟩ := append_quote_inj unquoted.1 otherUnquoted.1 (List.cons.inj same).2
  obtain rfl := String.toList_inj.mp keys
  by_cases blank : value = ""
  · by_cases otherBlank : otherValue = ""
    · subst blank otherBlank
      exact ⟨rfl, rest⟩
    · simp only [valueText, if_pos blank, if_neg otherBlank, List.nil_append,
        List.cons_append] at rest
      exact absurd (congrArg List.head? rest) clear
  · by_cases otherBlank : otherValue = ""
    · simp only [valueText, if_neg blank, if_pos otherBlank, List.nil_append,
        List.cons_append] at rest
      exact absurd (congrArg List.head? rest.symm) otherClear
    · simp only [valueText, if_neg blank, if_neg otherBlank, List.cons_append, List.append_assoc,
        List.cons.injEq, true_and] at rest
      obtain ⟨values, tails⟩ := append_quote_inj unquoted.2 otherUnquoted.2 rest
      exact ⟨by rw [String.toList_inj.mp values], tails⟩

/-! ### Lists of attributes -/

/-- Texts of attributes, each behind a blank. -/
def spaced (values : List Attribute) : List Char :=
  values.flatMap fun value => ' ' :: value.text.toList

variable {values others : List Attribute}

@[simp] theorem spaced_nil : spaced [] = [] := rfl

@[simp] theorem spaced_cons (value : Attribute) (rest : List Attribute) :
    spaced (value :: rest) = ' ' :: (value.text.toList ++ spaced rest) := rfl

theorem foldl_spaced (values : List Attribute) (front : String) :
    values.foldl (fun text value => text ++ " " ++ value.text) front =
      front ++ String.ofList (spaced values) := by
  induction values generalizing front with
  | nil => simp
  | cons value rest inductionHypothesis =>
      rw [List.foldl_cons, inductionHypothesis]
      apply String.toList_inj.mp
      simp

theorem joined_text (value : Attribute) (rest : List Attribute) :
    Text.joined " " ((value :: rest).map text) = value.text ++ String.ofList (spaced rest) := by
  rw [List.map_cons, Text.joined, List.foldl_map, foldl_spaced]

theorem foldl_ended (values : List Attribute) (front : String) :
    values.foldl (fun text value => text ++ value.text ++ " ") front =
      if values = [] then front else front ++ Text.joined " " (values.map text) ++ " " := by
  induction values generalizing front with
  | nil => rfl
  | cons value rest inductionHypothesis =>
      rw [List.foldl_cons, inductionHypothesis, if_neg (List.cons_ne_nil _ _), joined_text]
      apply String.toList_inj.mp
      cases rest with
      | nil => simp
      | cons second rest =>
          rw [if_neg (List.cons_ne_nil _ _), joined_text]
          simp

/-- Every attribute of the list is a pair of strings. -/
def OnlyStrings (values : List Attribute) : Prop :=
  ∀ value ∈ values, value.kind? = none

instance : Decidable (OnlyStrings values) := List.decidableBAll _ values

theorem OnlyStrings.eq_string {value : Attribute} (strings : OnlyStrings values)
    (member : value ∈ values) : ∃ key text, value = .string key text := by
  cases value with
  | enumerated kind number => cases strings _ member
  | string key text => exact ⟨key, text, rfl⟩

theorem OnlyStrings.tail {value : Attribute} (strings : OnlyStrings (value :: values)) :
    OnlyStrings values :=
  fun other member => strings other (.tail _ member)

/-- With the text the spaced texts are known, for no attribute is printed as nothing. -/
theorem joined_eq_iff (strings : OnlyStrings values) (otherStrings : OnlyStrings others) :
    Text.joined " " (values.map text) = Text.joined " " (others.map text) ↔
      spaced values = spaced others := by
  have visible : ∀ {value : Attribute} {rest : List Attribute}, OnlyStrings (value :: rest) →
      Text.joined " " ((value :: rest).map text) ≠ "" := by
    intro value rest strings empty
    obtain ⟨key, text, rfl⟩ := strings.eq_string List.mem_cons_self
    have characters := congrArg String.toList empty
    rw [joined_text, String.toList_append, toList_text_string] at characters
    cases characters
  cases values with
  | nil =>
      cases others with
      | nil => exact iff_of_true rfl rfl
      | cons other rest =>
          exact iff_of_false (fun same => visible otherStrings same.symm) (by simp)
  | cons value rest =>
      cases others with
      | nil => exact iff_of_false (visible strings) (by simp)
      | cons other otherRest =>
          rw [joined_text, joined_text, ← String.toList_inj]
          simp

theorem head?_spaced (values : List Attribute) : (spaced values).head? ≠ some '=' := by
  cases values <;> simp

/-- Without quotes in the strings, the texts tell the attributes. -/
theorem spaced_inj (unquoted : ∀ value ∈ values, value.Unquoted)
    (otherUnquoted : ∀ value ∈ others, value.Unquoted) (same : spaced values = spaced others) :
    values = others := by
  induction values generalizing others with
  | nil =>
      cases others with
      | nil => rfl
      | cons other rest => simp at same
  | cons value values inductionHypothesis =>
      cases others with
      | nil => simp at same
      | cons other others =>
          have here := unquoted value List.mem_cons_self
          have there := otherUnquoted other List.mem_cons_self
          cases value with
          | enumerated => exact here.elim
          | string key text =>
          cases other with
          | enumerated => exact there.elim
          | string otherKey otherText =>
          obtain ⟨first, rest⟩ := text_append_inj here there (head?_spaced values)
            (head?_spaced others) (List.cons.inj same).2
          rw [first, inductionHypothesis (fun value member => unquoted value (.tail _ member))
            (fun value member => otherUnquoted value (.tail _ member)) rest]

/-! ### Quotes -/

theorem count_text_string :
    2 + (if value = "" then 0 else 2) ≤
      (Attribute.string key value).text.toList.count '"' := by
  rw [toList_text_string, valueText]
  by_cases blank : value = ""
  · simp [blank]
  · simp [blank]
    omega

theorem two_mul_length_le_count (strings : OnlyStrings values) :
    2 * values.length ≤ (spaced values).count '"' := by
  induction values with
  | nil => simp
  | cons value rest inductionHypothesis =>
      obtain ⟨key, text, rfl⟩ := strings.eq_string List.mem_cons_self
      have here := @count_text_string key text
      have later := inductionHypothesis strings.tail
      have parts : (spaced (.string key text :: rest)).count '"' =
          (Attribute.string key text).text.toList.count '"' + (spaced rest).count '"' := by
        simp
      rw [parts, List.length_cons]
      omega

/-- A text with two quotes only is that of a key. -/
theorem eq_key_of_spaced (strings : OnlyStrings values) (outside : '"' ∉ key.toList)
    (same : spaced values = spaced [.string key ""]) : values = [.string key ""] := by
  have quotes : (spaced [.string key ""]).count '"' = 2 := by
    have none := List.count_eq_zero.mpr outside
    simp [toList_text_string, valueText, none]
  have few := two_mul_length_le_count strings
  rw [same, quotes] at few
  match values with
  | [] => simp at same
  | [value] =>
      obtain ⟨otherKey, text, rfl⟩ := strings.eq_string List.mem_cons_self
      have blank : text = "" := by
        refine Decidable.byContradiction fun shown => ?_
        have four := @count_text_string otherKey text
        have two : (Attribute.string otherKey text).text.toList.count '"' = 2 := by
          rw [← quotes, ← same]
          simp
        rw [if_neg shown, two] at four
        omega
      subst blank
      simp only [spaced_cons, toList_text_string, valueText] at same
      obtain rfl : otherKey = key := String.toList_inj.mp (by simpa using same)
      rfl
  | _ :: _ :: _ => simp only [List.length_cons] at few; omega

/-- The text of a list is that of a key, too. -/
theorem exists_key_spaced (strings : OnlyStrings values) (inhabited : values ≠ []) :
    ∃ key, spaced values = spaced [.string key ""] := by
  suffices quoted : ∃ within, spaced values = ' ' :: '"' :: (within ++ ['"']) by
    obtain ⟨within, same⟩ := quoted
    exact ⟨String.ofList within, by rw [same]; simp [toList_text_string, valueText]⟩
  induction values with
  | nil => exact absurd rfl inhabited
  | cons value rest inductionHypothesis =>
      obtain ⟨key, text, rfl⟩ := strings.eq_string List.mem_cons_self
      have first : ∃ within, (Attribute.string key text).text.toList =
          '"' :: (within ++ ['"']) := by
        rw [toList_text_string, valueText]
        by_cases blank : text = ""
        · exact ⟨key.toList, by simp [blank]⟩
        · exact ⟨key.toList ++ '"' :: '=' :: '"' :: text.toList, by simp [blank]⟩
      obtain ⟨within, here⟩ := first
      have parts : spaced (.string key text :: rest) =
          ' ' :: '"' :: (within ++ '"' :: spaced rest) := by
        simp [here]
      cases rest with
      | nil => exact ⟨within, parts⟩
      | cons second rest =>
          obtain ⟨behind, later⟩ := inductionHypothesis strings.tail (List.cons_ne_nil _ _)
          refine ⟨within ++ '"' :: ' ' :: '"' :: behind, ?_⟩
          rw [parts, later]
          simp

end Attribute

/-! ### The attributes at a site -/

/-- Where there is no attribute, one that is added is the only one. -/
theorem AttributeTable.listAt_insert_of_nil {table : AttributeTable} {site : Site}
    (bare : table.listAt site = []) (value : Attribute) :
    (table.insert site value).listAt site = [value] := by
  refine eq_of_ordered (listAt_ordered _ site) (List.pairwise_singleton _ _) fun other => ?_
  rw [mem_listAt, toMap_insert, List.mem_singleton]
  by_cases same : other.key = value.key
  · rw [same, Function.update_self, Option.some.injEq]
    exact eq_comm
  · have apart : (site, other.key) ≠ (site, value.key) := fun equal => same (Prod.mk.inj equal).2
    have absent : other ∉ table.listAt site := by simp [bare]
    rw [Function.update_of_ne apart, ← mem_listAt]
    exact iff_of_false absent fun equal => same (congrArg Attribute.key equal)

namespace FunctionEntry

variable {entry other : FunctionEntry} {site otherSite : Site}

/-- The attributes at a site as they are printed, with a blank between neighbours. -/
def attributeText (entry : FunctionEntry) (site : Site) : String :=
  Text.joined " " ((entry.attributes.listAt site).map Attribute.text)

/-- Behind a type or a list of parameters the text stands behind a blank. -/
theorem attributeSuffix_eq (entry : FunctionEntry) (site : Site) :
    Context.attributeSuffix entry site =
      if entry.attributes.listAt site = [] then "" else " " ++ entry.attributeText site := by
  rw [Context.attributeSuffix, Attribute.foldl_spaced, attributeText]
  cases entry.attributes.listAt site with
  | nil => simp
  | cons value rest =>
      rw [if_neg (List.cons_ne_nil _ _), Attribute.joined_text]
      apply String.toList_inj.mp
      simp

/-- In front of a result the text stands before a blank. -/
theorem attributePrefix_eq (entry : FunctionEntry) (site : Site) :
    Context.attributePrefix entry site =
      if entry.attributes.listAt site = [] then "" else entry.attributeText site ++ " " := by
  rw [Context.attributePrefix, Attribute.foldl_ended, String.empty_append, attributeText]

/-- Both sites have the same set of attributes. -/
def SameAttributes (entry : FunctionEntry) (site : Site) (other : FunctionEntry)
    (otherSite : Site) : Prop :=
  ∀ value, value ∈ entry.attributes.listAt site ↔ value ∈ other.attributes.listAt otherSite

theorem sameAttributes_iff :
    entry.SameAttributes site other otherSite ↔
      entry.attributes.listAt site = other.attributes.listAt otherSite :=
  ⟨AttributeTable.eq_of_ordered (entry.attributes.listAt_ordered site)
    (other.attributes.listAt_ordered otherSite), fun same value => by rw [same]⟩

end FunctionEntry

end TypedIR
