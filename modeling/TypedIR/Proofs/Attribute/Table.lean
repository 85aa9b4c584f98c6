import Mathlib.Data.List.Pairwise
import Mathlib.Logic.Function.Basic
import TypedIR.Attribute.Table

/-!
Contract: attributes as a map from sites and keys.

Owns:
- an attribute is found exactly if the table holds it;
- look-up after an insertion, and after several one after the other: the last one of a
  site and key counts;
- the map of a table: insertion replaces one entry, removal deletes one, and equal maps are equal
  tables;
- the listing of a map at a site, kinds in the order of their declaration and behind them strings
  in the order of their keys, which is what a table lists.
-/

namespace TypedIR

open Function (update update_self update_of_ne)

namespace AttributeEntry

/-- Where an attribute is found. -/
def place (entry : AttributeEntry) : Site × AttributeKey := (entry.site, entry.value.key)

theorem sits_iff {entry : AttributeEntry} {site : Site} {key : AttributeKey} :
    entry.Sits site key ↔ entry.place = (site, key) := Prod.mk.injEq .. ▸ Iff.rfl

theorem Precedes.place_ne {left right : AttributeEntry} (before : left.Precedes right) :
    left.place ≠ right.place := by
  intro same
  obtain ⟨sameSite, sameKey⟩ := Prod.mk.inj same
  rcases before with before | ⟨_, before⟩
  · exact Site.Precedes.irrefl _ (sameSite ▸ before)
  · exact AttributeKey.Precedes.irrefl _ (sameKey ▸ before)

/-- Entries of different places are ordered one way or the other. -/
theorem Precedes.total {left right : AttributeEntry} (different : left.place ≠ right.place) :
    left.Precedes right ∨ right.Precedes left := by
  by_cases sameSite : left.site = right.site
  · have differentKey : left.value.key ≠ right.value.key := fun same =>
      different (Prod.ext sameSite same)
    exact (AttributeKey.Precedes.total differentKey).imp (fun before => .inr ⟨sameSite, before⟩)
      fun before => .inr ⟨sameSite.symm, before⟩
  · exact (Site.Precedes.total sameSite).imp .inl .inl

end AttributeEntry

namespace AttributeTable

variable {table : AttributeTable} {site other : Site} {key : AttributeKey} {value : Attribute}

/-- Two entries of one place are one entry. -/
theorem entry_unique {left right : AttributeEntry} (leftMember : left ∈ table.entries)
    (rightMember : right ∈ table.entries) (same : left.place = right.place) : left = right := by
  refine Decidable.byContradiction fun different => ?_
  have apart : table.entries.Pairwise fun left right => left.place ≠ right.place :=
    table.ordered.imp AttributeEntry.Precedes.place_ne
  have : Std.Symm fun left right : AttributeEntry => left.place ≠ right.place :=
    ⟨fun _ _ => Ne.symm⟩
  exact apart.forall leftMember rightMember different same

theorem get?_eq_some :
    table.get? site key = some value ↔ ⟨site, value⟩ ∈ table.entries ∧ value.key = key := by
  unfold get?
  constructor
  · intro found
    obtain ⟨entry, search, rfl⟩ := Option.map_eq_some_iff.mp found
    have sits : entry.Sits site key := by simpa using List.find?_some search
    obtain ⟨rfl, rfl⟩ := sits
    exact ⟨List.mem_of_find?_eq_some search, rfl⟩
  · rintro ⟨member, rfl⟩
    cases search : table.entries.find? fun entry => entry.Sits site value.key with
    | none =>
        rw [List.find?_eq_none] at search
        exact absurd (decide_eq_true ⟨rfl, rfl⟩) (search _ member)
    | some entry =>
        have sits : entry.Sits site value.key := by simpa using List.find?_some search
        have same := entry_unique (List.mem_of_find?_eq_some search) member
          (AttributeEntry.sits_iff.mp sits)
        rw [same, Option.map_some]

theorem mem_insert {entry : AttributeEntry} :
    entry ∈ (table.insert site value).entries ↔
      entry = ⟨site, value⟩ ∨ entry ∈ table.entries ∧ entry.place ≠ (site, value.key) := by
  unfold insert insertEntry
  simp only [List.mem_append, List.mem_cons, List.mem_filter, decide_eq_true_iff]
  constructor
  · rintro (⟨member, before⟩ | same | ⟨member, before⟩)
    · exact .inr ⟨member, before.place_ne⟩
    · exact .inl same
    · exact .inr ⟨member, before.place_ne.symm⟩
  · rintro (same | ⟨member, different⟩)
    · exact .inr (.inl same)
    · have apart : entry.place ≠ AttributeEntry.place ⟨site, value⟩ := different
      rcases AttributeEntry.Precedes.total apart with before | before
      · exact .inl ⟨member, before⟩
      · exact .inr (.inr ⟨member, before⟩)

theorem get?_insert :
    (table.insert site value).get? other key =
      if (AttributeEntry.mk site value).Sits other key then some value
      else table.get? other key := by
  apply Option.ext
  intro found
  rw [get?_eq_some, mem_insert]
  by_cases here : (AttributeEntry.mk site value).Sits other key
  · rw [if_pos here]
    obtain ⟨rfl, rfl⟩ := here
    constructor
    · rintro ⟨same | ⟨_, different⟩, sameKey⟩
      · rw [(AttributeEntry.mk.inj same).2]
      · exact (different (Prod.ext rfl sameKey)).elim
    · rintro ⟨⟩
      exact ⟨.inl rfl, rfl⟩
  · rw [if_neg here, get?_eq_some]
    refine and_congr_left fun sameKey => ?_
    constructor
    · rintro (same | ⟨member, _⟩)
      · obtain ⟨rfl, rfl⟩ := AttributeEntry.mk.inj same
        exact absurd ⟨rfl, sameKey⟩ here
      · exact member
    · intro member
      refine .inr ⟨member, fun same => here ?_⟩
      obtain ⟨sameSite, same⟩ := Prod.mk.inj same
      exact ⟨sameSite.symm, same.symm.trans sameKey⟩

/-- Inserts attributes one after the other. -/
def insertAll (table : AttributeTable) (entries : List AttributeEntry) : AttributeTable :=
  entries.foldl (fun table entry => table.insert entry.site entry.value) table

theorem insertAll_append {first second : List AttributeEntry} :
    table.insertAll (first ++ second) = (table.insertAll first).insertAll second :=
  List.foldl_append

/-- The last attribute of a site and key counts. -/
theorem get?_insertAll {entries : List AttributeEntry} :
    (table.insertAll entries).get? site key =
      ((entries.reverse.find? fun entry => entry.Sits site key).map (·.value)).or
        (table.get? site key) := by
  induction entries generalizing table with
  | nil => rfl
  | cons entry rest inductionHypothesis =>
      have unfolded : table.insertAll (entry :: rest) =
          (table.insert entry.site entry.value).insertAll rest := rfl
      rw [unfolded, inductionHypothesis, get?_insert, List.reverse_cons, List.find?_append,
        Option.map_or, Option.or_assoc]
      congr 1
      by_cases sits : entry.Sits site key
      · rw [if_pos sits, List.find?_singleton, if_pos (decide_eq_true sits)]
        rfl
      · rw [if_neg sits, List.find?_singleton, if_neg (by simpa using sits)]
        rfl

end AttributeTable

/-! ### As a map -/

/-- Attributes by site and key. -/
abbrev AttributeMap := Site × AttributeKey → Option Attribute

/-- The entries at a site: kinds in the order of their declaration, then strings in the order of
their code points. -/
def AttributeMap.ListsAt (map : AttributeMap) (site : Site) (values : List Attribute) : Prop :=
  ∃ strings : List String, strings.Pairwise (· < ·) ∧
    (∀ key, key ∈ strings ↔ (map (site, .string key)).isSome) ∧
    values = (AttributeKind.all.filterMap fun kind => map (site, .enumerated kind)) ++
      strings.filterMap fun key => map (site, .string key)

/-- The key of a string attribute. -/
def Attribute.stringKey? : Attribute → Option String
  | .enumerated _ _ => none
  | .string key _ => some key

theorem Attribute.stringKey?_eq_some {value : Attribute} {key : String} :
    value.stringKey? = some key ↔ value.key = .string key := by
  cases value <;> simp [stringKey?, Attribute.key]

theorem AttributeKey.Precedes.asymm {left right : AttributeKey} (before : left.Precedes right) :
    ¬ right.Precedes left := fun after => Precedes.irrefl left (before.trans after)

theorem AttributeKey.Precedes.ne {left right : AttributeKey} (before : left.Precedes right) :
    left ≠ right := fun same => Precedes.irrefl right (same ▸ before)

namespace AttributeTable

variable {table first second : AttributeTable} {site : Site} {key : AttributeKey}
  {value : Attribute}

def toMap (table : AttributeTable) : AttributeMap := fun place => table.get? place.1 place.2

theorem toMap_eq_some :
    table.toMap (site, key) = some value ↔ ⟨site, value⟩ ∈ table.entries ∧ value.key = key :=
  get?_eq_some

theorem key_of_toMap (found : table.toMap (site, key) = some value) : value.key = key :=
  (toMap_eq_some.mp found).2

theorem toMap_insert (table : AttributeTable) (site : Site) (value : Attribute) :
    (table.insert site value).toMap = update table.toMap (site, value.key) (some value) := by
  funext place
  obtain ⟨other, key⟩ := place
  show (table.insert site value).get? other key = _
  rw [get?_insert]
  by_cases here : (AttributeEntry.mk site value).Sits other key
  · rw [if_pos here]
    obtain ⟨rfl, rfl⟩ := here
    exact (update_self (site, value.key) (some value) table.toMap).symm
  · rw [if_neg here]
    have apart : (other, key) ≠ (site, value.key) := fun same =>
      here ⟨(Prod.mk.inj same).1.symm, (Prod.mk.inj same).2.symm⟩
    exact (update_of_ne apart (some value) table.toMap).symm

theorem toMap_erase (table : AttributeTable) (site : Site) (key : AttributeKey) :
    (table.erase site key).toMap = update table.toMap (site, key) none := by
  funext place
  obtain ⟨other, otherKey⟩ := place
  apply Option.ext
  intro value
  have member : (⟨other, value⟩ : AttributeEntry) ∈ (table.erase site key).entries ↔
      ⟨other, value⟩ ∈ table.entries ∧ ¬ (other = site ∧ value.key = key) :=
    List.mem_filter.trans (and_congr_right' decide_eq_true_iff)
  rw [toMap_eq_some, member]
  by_cases here : (other, otherKey) = (site, key)
  · rw [here, update_self]
    obtain ⟨rfl, rfl⟩ := Prod.mk.inj here
    exact iff_of_false (fun ⟨⟨_, apart⟩, same⟩ => apart ⟨rfl, same⟩) fun none => by cases none
  · rw [update_of_ne here, toMap_eq_some, and_right_comm]
    refine and_iff_left_of_imp fun held same => here ?_
    rw [same.1, ← held.2, same.2]

theorem toMap_injective (same : first.toMap = second.toMap) : first = second := by
  have members : ∀ entry, entry ∈ first.entries ↔ entry ∈ second.entries := by
    intro entry
    have left := @toMap_eq_some first entry.site entry.value.key entry.value
    rw [same, toMap_eq_some] at left
    exact ⟨fun member => (left.mpr ⟨member, rfl⟩).1, fun member => (left.mp ⟨member, rfl⟩).1⟩
  have irreflexive : ∀ entry : AttributeEntry, ¬ entry.Precedes entry :=
    fun _ before => before.place_ne rfl
  have nodup : ∀ table : AttributeTable, table.entries.Nodup := fun table =>
    table.ordered.imp fun before same => before.place_ne (congrArg _ same)
  have entries : first.entries = second.entries :=
    List.Perm.eq_of_pairwise
      (fun left right _ _ before after => absurd (before.trans after) (irreflexive left))
      first.ordered second.ordered
      ((List.perm_ext_iff_of_nodup (nodup first) (nodup second)).mpr members)
  cases first
  cases second
  simp_all

/-! ### The listing -/

theorem mem_listAt : value ∈ table.listAt site ↔ table.toMap (site, value.key) = some value := by
  rw [toMap_eq_some, and_iff_left rfl, listAt, List.mem_map]
  constructor
  · rintro ⟨entry, member, rfl⟩
    obtain ⟨listed, here⟩ := List.mem_filter.mp member
    obtain rfl := of_decide_eq_true here
    exact listed
  · intro listed
    exact ⟨⟨site, value⟩, List.mem_filter.mpr ⟨listed, decide_eq_true rfl⟩, rfl⟩

theorem listAt_ordered (table : AttributeTable) (site : Site) :
    (table.listAt site).Pairwise fun left right => left.key.Precedes right.key := by
  refine List.pairwise_map.mpr (List.Pairwise.imp_of_mem ?_ (table.ordered.filter _))
  intro left right leftMember rightMember before
  have leftHere : left.site = site := of_decide_eq_true (List.mem_filter.mp leftMember).2
  have rightHere : right.site = site := of_decide_eq_true (List.mem_filter.mp rightMember).2
  rcases before with apart | ⟨_, precedes⟩
  · rw [leftHere, rightHere] at apart
    exact absurd apart (Site.Precedes.irrefl site)
  · exact precedes

/-- Lists in the order of keys with the same members are the same. -/
theorem eq_of_ordered {left right : List Attribute}
    (leftOrdered : left.Pairwise fun one other => one.key.Precedes other.key)
    (rightOrdered : right.Pairwise fun one other => one.key.Precedes other.key)
    (members : ∀ value, value ∈ left ↔ value ∈ right) : left = right := by
  have nodup : ∀ values : List Attribute,
      (values.Pairwise fun one other => one.key.Precedes other.key) → values.Nodup :=
    fun _ ordered => ordered.imp fun before same => before.ne (congrArg Attribute.key same)
  exact List.Perm.eq_of_pairwise (fun _ _ _ _ before after => absurd after before.asymm)
    leftOrdered rightOrdered
    ((List.perm_ext_iff_of_nodup (nodup _ leftOrdered) (nodup _ rightOrdered)).mpr members)

/-- The keys of the string attributes at a site. -/
def stringKeysAt (table : AttributeTable) (site : Site) : List String :=
  (table.listAt site).filterMap Attribute.stringKey?

theorem stringKeysAt_ascending (table : AttributeTable) (site : Site) :
    (table.stringKeysAt site).Pairwise (· < ·) := by
  refine (table.listAt_ordered site).filterMap _ fun left right before one oneKey two twoKey => ?_
  rw [Attribute.stringKey?_eq_some.mp oneKey, Attribute.stringKey?_eq_some.mp twoKey] at before
  exact before

theorem mem_stringKeysAt {key : String} :
    key ∈ table.stringKeysAt site ↔ (table.toMap (site, .string key)).isSome := by
  rw [stringKeysAt, List.mem_filterMap, Option.isSome_iff_exists]
  refine exists_congr fun value => ?_
  rw [mem_listAt, Attribute.stringKey?_eq_some]
  constructor
  · rintro ⟨held, same⟩
    rwa [same] at held
  · intro held
    have same := key_of_toMap held
    exact ⟨same ▸ held, same⟩

theorem listAt_listsAt (table : AttributeTable) (site : Site) :
    table.toMap.ListsAt site (table.listAt site) := by
  refine ⟨table.stringKeysAt site, table.stringKeysAt_ascending site, fun _ => mem_stringKeysAt,
    eq_of_ordered (table.listAt_ordered site) (List.pairwise_append.mpr ⟨?_, ?_, ?_⟩) ?_⟩
  · refine AttributeKind.all_pairwise_code_lt.filterMap _ ?_
    intro left right before one oneHeld two twoHeld
    rw [key_of_toMap oneHeld, key_of_toMap twoHeld]
    exact before
  · refine (table.stringKeysAt_ascending site).filterMap _ ?_
    intro left right before one oneHeld two twoHeld
    rw [key_of_toMap oneHeld, key_of_toMap twoHeld]
    exact before
  · intro one oneListed two twoListed
    obtain ⟨kind, _, oneHeld⟩ := List.mem_filterMap.mp oneListed
    obtain ⟨key, _, twoHeld⟩ := List.mem_filterMap.mp twoListed
    rw [key_of_toMap oneHeld, key_of_toMap twoHeld]
    exact trivial
  · intro value
    rw [mem_listAt, List.mem_append, List.mem_filterMap, List.mem_filterMap]
    constructor
    · intro held
      cases value with
      | enumerated kind number => exact .inl ⟨kind, AttributeKind.mem_all kind, held⟩
      | string key text =>
          exact .inr ⟨key, mem_stringKeysAt.mpr (Option.isSome_of_eq_some held), held⟩
    · rintro (⟨kind, _, held⟩ | ⟨key, _, held⟩)
      · exact (key_of_toMap held).symm ▸ held
      · exact (key_of_toMap held).symm ▸ held

end AttributeTable

end TypedIR
