import TypedIR.Attribute.Basic

/-!
Contract: all attributes of one function, as a finite map from a site and a key.

Owns:
- the table, whose entries stand in strictly increasing order of site and key,
  so that equal maps are equal tables;
- look-up, insertion, which replaces the entry of the same site and key, and
  removal;
- the attributes at one site, in the order of their keys.

Does not own: the number of parameters of the function.
-/

namespace TypedIR

structure AttributeEntry where
  site : Site
  value : Attribute
deriving DecidableEq, Repr

namespace AttributeEntry

def Precedes (left right : AttributeEntry) : Prop :=
  left.site.Precedes right.site ∨
    left.site = right.site ∧ left.value.key.Precedes right.value.key

instance (left right : AttributeEntry) : Decidable (left.Precedes right) := by
  unfold Precedes; infer_instance

/-- The entry is the one of the given site and key. -/
def Sits (entry : AttributeEntry) (site : Site) (key : AttributeKey) : Prop :=
  entry.site = site ∧ entry.value.key = key

instance (entry : AttributeEntry) (site : Site) (key : AttributeKey) :
    Decidable (entry.Sits site key) := by
  unfold Sits; infer_instance

theorem Precedes.trans {first second third : AttributeEntry}
    (left : first.Precedes second) (right : second.Precedes third) : first.Precedes third := by
  rcases left with left | ⟨sameLeft, left⟩ <;> rcases right with right | ⟨sameRight, right⟩
  · exact .inl (left.trans right)
  · exact .inl (sameRight ▸ left)
  · exact .inl (sameLeft ▸ right)
  · exact .inr ⟨sameLeft.trans sameRight, left.trans right⟩

end AttributeEntry

structure AttributeTable where
  entries : List AttributeEntry
  ordered : entries.Pairwise AttributeEntry.Precedes
deriving DecidableEq

namespace AttributeTable

def empty : AttributeTable := ⟨[], .nil⟩

/-- The entries before the new one, the new one, and those after it. An entry of the same site
and key is neither before nor after, and so is replaced. -/
def insertEntry (entry : AttributeEntry) (entries : List AttributeEntry) :
    List AttributeEntry :=
  entries.filter (fun other => other.Precedes entry) ++
    entry :: entries.filter (fun other => entry.Precedes other)

theorem insertEntry_ordered (entry : AttributeEntry) {entries : List AttributeEntry}
    (ordered : entries.Pairwise AttributeEntry.Precedes) :
    (insertEntry entry entries).Pairwise AttributeEntry.Precedes := by
  refine List.pairwise_append.mpr ⟨ordered.filter _, List.pairwise_cons.mpr ⟨?_, ordered.filter _⟩, ?_⟩
  · intro other member
    simpa using (List.mem_filter.mp member).2
  · intro smaller memberSmaller larger memberLarger
    have before : smaller.Precedes entry := by simpa using (List.mem_filter.mp memberSmaller).2
    rcases List.mem_cons.mp memberLarger with rfl | member
    · exact before
    · exact before.trans (by simpa using (List.mem_filter.mp member).2)

def insert (table : AttributeTable) (site : Site) (value : Attribute) : AttributeTable :=
  ⟨insertEntry ⟨site, value⟩ table.entries, insertEntry_ordered _ table.ordered⟩

def erase (table : AttributeTable) (site : Site) (key : AttributeKey) : AttributeTable :=
  ⟨table.entries.filter fun entry => ¬ entry.Sits site key, table.ordered.filter _⟩

def get? (table : AttributeTable) (site : Site) (key : AttributeKey) : Option Attribute :=
  (table.entries.find? fun entry => entry.Sits site key).map (·.value)

/-- The attributes at a site: kinds by code, then strings by key. -/
def listAt (table : AttributeTable) (site : Site) : List Attribute :=
  (table.entries.filter fun entry => entry.site = site).map (·.value)

end AttributeTable

end TypedIR
