import TypedIR.Proofs.Arena.Ownership
import TypedIR.Proofs.Types.Tree

/-!
Contract: types are canonical, and interning reads an index that says so.

Owns:
- types in full, expanded through the arena as their text is written;
- the invariant of the two stores that interning writes: the table holds well-formed
  structures, made of types before them, and the index is its inverse;
- that handles, types in full and texts determine each other in every reachable system,
  for every engine.
-/

namespace TypedIR

namespace Arena

/-- A type with all components expanded, with so many levels at most. -/
def expandWithin (arena : Arena) : Nat → TypeId → Option TypeTree
  | 0, _ => none
  | budget + 1, type => do
      match ← (arena.typeKind type).toOption with
      | .void => return .void
      | .label => return .label
      | .integer bits => return .integer bits
      | .array element length => (arena.expandWithin budget element).map (.array · length)
      | .struct fields packed => (fields.mapM (arena.expandWithin budget)).map (.struct · packed)
      | .function result parameters variadic =>
          let result ← arena.expandWithin budget result
          let parameters ← parameters.mapM (arena.expandWithin budget)
          return .function result parameters variadic

def expansion (arena : Arena) (type : TypeId) : Option TypeTree :=
  arena.expandWithin (type.index + 1) type

namespace Contents

variable (contents : Contents)

/-- The type is an integer, an array or a structure. -/
def Sized (type : TypeId) : Prop :=
  ∃ kind, contents.types[type.index]? = some kind ∧ kind.isSized = true

/-- The table of types and the index of structures, as interning keeps them. -/
structure Canonical (settings : Settings) : Prop where
  components : ∀ (index : Nat) kind, contents.types[index]? = some kind →
    ∀ component ∈ kind.components, component.context = contents.id ∧ component.index < index
  width : ∀ (index : Nat) bits, contents.types[index]? = some (.integer bits) →
    0 < bits ∧ bits ≤ settings.maxIntegerWidth
  element : ∀ (index : Nat) element length, contents.types[index]? = some (.array element length) →
    contents.Sized element
  fields : ∀ (index : Nat) fields packed, contents.types[index]? = some (.struct fields packed) →
    ∀ field ∈ fields, contents.Sized field
  parameters : ∀ (index : Nat) result parameters variadic,
    contents.types[index]? = some (.function result parameters variadic) →
      ∀ parameter ∈ parameters, contents.Sized parameter
  result : ∀ (index : Nat) result parameters variadic,
    contents.types[index]? = some (.function result parameters variadic) →
      contents.Sized result ∨ contents.types[result.index]? = some .void
  /-- The index is the inverse of the table. -/
  interned : ∀ kind (index : Nat),
    contents.interned.get? kind = some index ↔ contents.types[index]? = some kind

end Contents

end Arena

/-! ### The stores of a context -/

namespace Context

variable {settings : Settings} {context : Context}

theorem contents_types_eq_some {index : TypeRef} {kind : Arena.TypeKind} :
    context.contents.types[index]? = some kind ↔
      ∃ shape, context.shape? index = some shape ∧ shape.tagged context.id = kind := by
  rw [contents_types, Option.map_eq_some_iff]

theorem contents_sized {type : TypeRef} (sized : SizedBy context.shape? type) :
    context.contents.Sized ⟨context.id, type⟩ := by
  obtain ⟨shape, known, isSized⟩ := sized
  refine ⟨_, contents_types_eq_some.mpr ⟨shape, known, rfl⟩, ?_⟩
  rw [TypeShape.isSized_tagged, isSized]

theorem Canonical.contents_interned (canonical : context.Canonical settings)
    (kind : Arena.TypeKind) (index : Nat) :
    context.contents.interned.get? kind = some index ↔
      context.contents.types[index]? = some kind := by
  refine ⟨context.types_of_interned, fun stored => ?_⟩
  obtain ⟨shape, known, rfl⟩ := contents_types_eq_some.mp stored
  rw [context.contents_interned]
  cases found : context.findType? shape with
  | none => exact absurd known (findType?_eq_none found index)
  | some other => rw [canonical.distinct other index shape (findType?_eq_some found) known]

theorem Canonical.contents_canonical (canonical : context.Canonical settings)
    (grounded : context.Grounded) : context.contents.Canonical settings where
  components index kind stored component member := by
    obtain ⟨shape, known, rfl⟩ := contents_types_eq_some.mp stored
    obtain ⟨home, member⟩ := mem_components_tagged.mp member
    exact ⟨home, grounded.components index shape known _ member⟩
  width index bits stored := by
    obtain ⟨shape, known, same⟩ := contents_types_eq_some.mp stored
    cases shape <;> cases same
    exact (canonical.shapeAt grounded known).width bits rfl
  element index element length stored := by
    obtain ⟨shape, known, same⟩ := contents_types_eq_some.mp stored
    cases shape <;> cases same
    exact contents_sized ((canonical.shapeAt grounded known).element _ _ rfl)
  fields index fields packed stored field member := by
    obtain ⟨shape, known, same⟩ := contents_types_eq_some.mp stored
    cases shape <;> cases same
    obtain ⟨plain, listed, rfl⟩ := List.mem_map.mp member
    exact contents_sized ((canonical.shapeAt grounded known).fields _ _ rfl plain listed)
  parameters index result parameters variadic stored parameter member := by
    obtain ⟨shape, known, same⟩ := contents_types_eq_some.mp stored
    cases shape <;> cases same
    obtain ⟨plain, listed, rfl⟩ := List.mem_map.mp member
    exact contents_sized ((canonical.shapeAt grounded known).parameters _ _ _ rfl plain listed)
  result index result parameters variadic stored := by
    obtain ⟨shape, known, same⟩ := contents_types_eq_some.mp stored
    cases shape <;> cases same
    refine ((canonical.shapeAt grounded known).result _ _ _ rfl).imp contents_sized fun isVoid => ?_
    exact contents_types_eq_some.mpr ⟨.void, isVoid, rfl⟩
  interned := canonical.contents_interned

end Context

/-! ### Types in full -/

namespace Store.Holds

variable {store : Store} {context : Context} (holds : store.Holds context)

include holds

theorem expandWithin (budget : Nat) (type : TypeRef) :
    store.arena.expandWithin budget ⟨context.id, type⟩ =
      Context.treeWithin context.types budget type := by
  induction budget generalizing type with
  | zero => rfl
  | succ budget inductionHypothesis =>
      have each : ∀ types : List TypeRef,
          (types.map (TypeId.mk context.id)).mapM (store.arena.expandWithin budget) =
            types.mapM (Context.treeWithin context.types budget) := by
        intro types
        rw [List.mapM_map]
        exact congrArg (List.mapM · types) (funext inductionHypothesis)
      have known : store.arena.typeKind ⟨context.id, type⟩ =
          (context.resolveType ⟨context.id, type⟩).map (TypeShape.tagged context.id) :=
        holds.typeKind rfl
      unfold Arena.expandWithin Context.treeWithin
      rw [known, Context.resolveType, if_neg (not_not_intro rfl), Context.shape?]
      cases context.types[type]? with
      | none => rfl
      | some shape =>
          cases shape with
          | void | label | integer => rfl
          | array element length =>
              show (store.arena.expandWithin budget ⟨context.id, element⟩).map _ = _
              rw [inductionHypothesis element]
          | struct fields packed =>
              show ((fields.map _).mapM (store.arena.expandWithin budget)).map _ = _
              rw [each fields]
          | function result parameters variadic =>
              show (store.arena.expandWithin budget ⟨context.id, result⟩ >>= fun tree =>
                (parameters.map _).mapM (store.arena.expandWithin budget) >>= fun trees =>
                  pure (TypeTree.function tree trees variadic)) = _
              rw [inductionHypothesis result, each parameters]

theorem expansion {type : TypeId} (home : type.context = context.id) :
    store.arena.expansion type = context.tree? type.index := by
  have same : type = ⟨context.id, type.index⟩ := by rw [← home]
  rw [Arena.expansion, same]
  exact holds.expandWithin _ _

theorem formatType {type : TypeId} (home : type.context = context.id) :
    (store.arena.formatType type).toOption = context.typeText? type.index := by
  have same : type = ⟨context.id, type.index⟩ := by rw [← home]
  rw [Arena.formatType, same]
  exact holds.formatWithin _ _

/-- A type of the context is written as its tree is. -/
theorem type_in_full (consistent : context.Consistent store.settings) {type : TypeId}
    (issued : context.Issued (.type type)) : ∃ tree, context.tree? type.index = some tree ∧
      store.arena.expansion type = some tree ∧ store.arena.formatType type = .ok tree.text := by
  obtain ⟨tree, known, _⟩ :=
    consistent.canonical.formatType_ok consistent.coherent.grounded issued
  refine ⟨tree, known, (holds.expansion issued.1).trans known, ?_⟩
  have text := holds.formatType issued.1
  rw [Context.typeText?, known, Option.map_some] at text
  cases written : store.arena.formatType type with
  | error fault =>
      rw [written] at text
      cases text
  | ok other =>
      rw [written] at text
      exact congrArg _ (Option.some.inj text)

/-- Types with one tree, or with one text, are the same. -/
theorem type_unique (consistent : context.Consistent store.settings) {first second : TypeId}
    (firstIssued : context.Issued (.type first)) (secondIssued : context.Issued (.type second)) :
    (first = second ↔ store.arena.expansion first = store.arena.expansion second) ∧
      (first = second ↔ store.arena.formatType first = store.arena.formatType second) := by
  obtain ⟨one, firstTree, firstFull, firstText⟩ := holds.type_in_full consistent firstIssued
  obtain ⟨two, secondTree, secondFull, secondText⟩ := holds.type_in_full consistent secondIssued
  have grounded := consistent.coherent.grounded
  have same : first.index = second.index → first = second := by
    intro equal
    have home := firstIssued.1.trans secondIssued.1.symm
    cases first
    cases second
    exact congrArg₂ TypeId.mk home equal
  constructor
  · refine ⟨fun equal => by rw [equal], fun equal => same ?_⟩
    obtain rfl := Option.some.inj (firstFull.symm.trans (equal.trans secondFull))
    exact consistent.canonical.tree?_injective grounded firstTree secondTree
  · refine ⟨fun equal => by rw [equal], fun equal => same ?_⟩
    have texts : one.text = two.text :=
      Except.ok.inj (firstText.symm.trans (equal.trans secondText))
    apply consistent.canonical.typeText?_injective grounded
    · rw [Context.typeText?, firstTree, Option.map_some]
    · rw [Context.typeText?, secondTree, Option.map_some, texts]

end Store.Holds

/-! ### Reachable systems -/

namespace System

variable {σ : Type} {engine : Arena.Engine σ} {initial : σ} {system : System σ}

/-- In every live context the index is the inverse of a table of well-formed structures, every
type is written in full, and handles, types in full and texts determine each other. -/
theorem types_canonical (reachable : Reachable engine initial system) {id : ContextId}
    {contents : Arena.Contents} (live : system.arena.contents? id = some contents) :
    contents.id = id ∧ contents.Canonical system.arena.settings ∧
      (∀ type, contents.Issued (.type type) → ∃ tree,
        system.arena.expansion type = some tree ∧
          system.arena.formatType type = .ok tree.text) ∧
      ∀ first second, contents.Issued (.type first) → contents.Issued (.type second) →
        (first = second ↔ system.arena.expansion first = system.arena.expansion second) ∧
          (first = second ↔ system.arena.formatType first = system.arena.formatType second) := by
  obtain ⟨workspace, context, _, rfl, every, found, rfl⟩ := reachable.live_workspace live
  obtain ⟨rfl, consistent⟩ := every _ _ found
  have holds : workspace.store.Holds context := found
  refine ⟨rfl, consistent.canonical.contents_canonical consistent.coherent.grounded, ?_, ?_⟩
  · intro type issued
    obtain ⟨tree, _, expanded, written⟩ :=
      holds.type_in_full consistent (Context.contents_issued.mp issued)
    exact ⟨tree, expanded, written⟩
  · intro first second firstIssued secondIssued
    exact holds.type_unique consistent (Context.contents_issued.mp firstIssued)
      (Context.contents_issued.mp secondIssued)

/-- One type of each form, the structures with one field both plain and packed. Asking for the
first one again gives no further type. -/
def typesRun : List Command :=
  let context : ContextId := ⟨0, 0⟩
  [.createContext "types",
    .edit (.integerType context 8),
    .edit (.arrayType ⟨context, 0⟩ 4),
    .edit (.structType context [⟨context, 0⟩] false),
    .edit (.structType context [⟨context, 0⟩] true),
    .edit (.structType context [] false),
    .edit (.signatureType ⟨context, 0⟩ [] true),
    .edit (.voidType context),
    .edit (.signatureType ⟨context, 6⟩ [⟨context, 3⟩, ⟨context, 1⟩] false),
    .edit (.labelType context),
    .edit (.integerType context 8)]

/-- The nine types of the run have nine texts, the plain and the packed structure among them, and
the index tells the position of the packed one. -/
theorem typesRun_canonical :
    let arena := (afterAll .reference (start .standard .start) typesRun).arena
    ∃ contents, arena.contents? ⟨0, 0⟩ = some contents ∧ contents.types.size = 9 ∧
      contents.Canonical .standard ∧
      contents.interned.get? (.struct [⟨⟨0, 0⟩, 0⟩] true) = some 3 ∧
      arena.expansion ⟨⟨0, 0⟩, 2⟩ ≠ arena.expansion ⟨⟨0, 0⟩, 3⟩ ∧
      ∀ first second, first < 9 → second < 9 →
        arena.formatType ⟨⟨0, 0⟩, first⟩ = arena.formatType ⟨⟨0, 0⟩, second⟩ →
          first = second := by
  intro arena
  have live : (arena.contents? ⟨0, 0⟩).map (fun contents => (contents.types.size,
      contents.types[3]?)) = some (9, some (.struct [⟨⟨0, 0⟩, 0⟩] true)) := by
    decide +kernel
  obtain ⟨contents, found, shown⟩ := Option.map_eq_some_iff.mp live
  obtain ⟨size, packed⟩ := Prod.mk.inj shown
  obtain ⟨home, canonical, _, apart⟩ := types_canonical ⟨.standard, typesRun, rfl⟩ found
  have settings : arena.settings = .standard := by decide +kernel
  have issued : ∀ type, type < 9 → contents.Issued (.type ⟨⟨0, 0⟩, type⟩) :=
    fun type inside => ⟨home.symm, Nat.lt_of_lt_of_eq inside size.symm⟩
  refine ⟨contents, found, size, settings ▸ canonical, (canonical.interned _ _).mpr packed, ?_, ?_⟩
  · intro equal
    have same := (apart ⟨⟨0, 0⟩, 2⟩ ⟨⟨0, 0⟩, 3⟩ (issued 2 (by decide)) (issued 3 (by decide))).1
    cases same.mpr equal
  · intro first second firstInside secondInside equal
    have same := (apart ⟨⟨0, 0⟩, first⟩ ⟨⟨0, 0⟩, second⟩ (issued first firstInside)
      (issued second secondInside)).2
    exact congrArg TypeId.index (same.mpr equal)

end System

end TypedIR
