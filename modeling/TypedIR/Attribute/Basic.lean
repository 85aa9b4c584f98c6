import TypedIR.Attribute.Kind

/-!
Contract: one attribute, its key and its printed form.

Owns:
- the two forms of an attribute, a kind with a number and a pair of strings;
- the key that two attributes at one site may not share;
- the order of keys: kinds by code, then strings by code point.
-/

namespace TypedIR

inductive Attribute where
  | enumerated (kind : AttributeKind) (number : UInt64)
  | string (key value : String)
deriving DecidableEq, Repr

inductive AttributeKey where
  | enumerated (kind : AttributeKind)
  | string (key : String)
deriving DecidableEq, Repr

namespace Attribute

def key : Attribute → AttributeKey
  | .enumerated kind _ => .enumerated kind
  | .string key _ => .string key

def kind? : Attribute → Option AttributeKind
  | .enumerated kind _ => some kind
  | .string _ _ => none

/-- The number is shown for the kinds that carry one, a value unless it is empty. Strings are
shown as they are between double quotes. -/
def text : Attribute → String
  | .enumerated kind number =>
      if kind.takesValue then kind.word ++ " " ++ toString number.toNat else kind.word
  | .string key value =>
      if value = "" then "\"" ++ key ++ "\"" else "\"" ++ key ++ "\"=\"" ++ value ++ "\""

end Attribute

namespace AttributeKey

def Precedes : AttributeKey → AttributeKey → Prop
  | .enumerated left, .enumerated right => left.code < right.code
  | .enumerated _, .string _ => True
  | .string _, .enumerated _ => False
  | .string left, .string right => left < right

instance (left right : AttributeKey) : Decidable (left.Precedes right) := by
  unfold Precedes; split <;> infer_instance

theorem Precedes.irrefl (key : AttributeKey) : ¬ key.Precedes key := by
  cases key with
  | enumerated kind => exact UInt32.lt_irrefl _
  | string key => exact String.lt_irrefl key

theorem Precedes.trans {first second third : AttributeKey}
    (left : first.Precedes second) (right : second.Precedes third) : first.Precedes third := by
  cases first <;> cases second <;> cases third <;> simp only [Precedes] at left right ⊢
  · exact UInt32.lt_trans left right
  · exact String.lt_trans left right

theorem Precedes.total {left right : AttributeKey} (different : left ≠ right) :
    left.Precedes right ∨ right.Precedes left := by
  cases left with
  | enumerated left =>
      cases right with
      | enumerated right =>
          refine (UInt32.lt_or_lt_of_ne fun same => different ?_)
          rw [AttributeKind.code_injective same]
      | string right => exact .inl trivial
  | string left =>
      cases right with
      | enumerated right => exact .inr trivial
      | string right =>
          simp only [Precedes]
          have apart : left ≠ right := fun same => different (by rw [same])
          rcases Decidable.em (left < right) with smaller | notSmaller
          · exact .inl smaller
          · rcases Decidable.em (right < left) with larger | notLarger
            · exact .inr larger
            · exact absurd (String.le_antisymm (String.not_lt.mp notLarger)
                (String.not_lt.mp notSmaller)) apart

end AttributeKey

namespace Site

/-- The result stands before the parameters, these before the function itself. -/
def Precedes : Site → Site → Prop
  | .ret, .ret => False
  | .ret, _ => True
  | .parameter _, .ret => False
  | .parameter left, .parameter right => left < right
  | .parameter _, .function => True
  | .function, _ => False

instance (left right : Site) : Decidable (left.Precedes right) := by
  unfold Precedes; split <;> infer_instance

theorem Precedes.irrefl (site : Site) : ¬ site.Precedes site := by
  cases site <;> simp [Precedes]

theorem Precedes.trans {first second third : Site}
    (left : first.Precedes second) (right : second.Precedes third) : first.Precedes third := by
  cases first <;> cases second <;> cases third <;> simp only [Precedes] at left right ⊢
  exact Nat.lt_trans left right

theorem Precedes.total {left right : Site} (different : left ≠ right) :
    left.Precedes right ∨ right.Precedes left := by
  cases left with
  | ret =>
      cases right with
      | ret => exact absurd rfl different
      | parameter right => exact .inl trivial
      | function => exact .inl trivial
  | parameter left =>
      cases right with
      | ret => exact .inr trivial
      | parameter right =>
          have apart : left ≠ right := fun same => different (by rw [same])
          exact Nat.lt_or_gt_of_ne apart
      | function => exact .inl trivial
  | function =>
      cases right with
      | ret => exact .inr trivial
      | parameter right => exact .inr trivial
      | function => exact absurd rfl different

end Site

end TypedIR
