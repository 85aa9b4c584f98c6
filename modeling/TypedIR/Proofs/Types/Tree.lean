import TypedIR.Proofs.Types.Canonical
import TypedIR.Proofs.Types.Text

/-!
Contract: a type and its tree determine each other.

Owns:
- expansion without a budget: one equation for `tree?`, from that the budget never
  runs out where components stand before what they are part of;
- every position of the table has a tree, a flat one if it is sized, else a proper
  one;
- two positions with one tree, or with trees of one text, are the same;
- the invariants of a context together, and that changes keep them and the trees;
- what the tree of a type says of its structure, and the tree of a structure that has
  just been interned.
-/

/-! ## Trees -/

namespace TypedIR

/-- The tree of a shape, from the trees of its components. -/
def TypeShape.expand (tree? : TypeRef → Option TypeTree) : TypeShape → Option TypeTree
  | .void => some .void
  | .label => some .label
  | .integer bits => some (.integer bits)
  | .array element length => (tree? element).map (.array · length)
  | .struct fields packed => (fields.mapM tree?).map (.struct · packed)
  | .function result parameters variadic => do
      let result ← tree? result
      let parameters ← parameters.mapM tree?
      return .function result parameters variadic

theorem mapM_eq_some {α β : Type} {action : α → Option β} {items : List α} {results : List β} :
    items.mapM action = some results ↔
      List.Forall₂ (fun item result => action item = some result) items results := by
  induction items generalizing results with
  | nil =>
      rw [List.mapM_nil, List.forall₂_nil_left_iff]
      exact Option.some_inj.trans eq_comm
  | cons item rest inductionHypothesis =>
      rw [List.mapM_cons, List.forall₂_cons_left_iff]
      simp only [Option.bind_eq_bind, Option.bind_eq_some_iff, Option.pure_def, Option.some.injEq,
        inductionHypothesis]
      constructor
      · rintro ⟨first, done, others, rests, rfl⟩
        exact ⟨first, others, done, rests, rfl⟩
      · rintro ⟨first, others, done, rests, rfl⟩
        exact ⟨first, done, others, rests, rfl⟩

/-- The constructors of shape and tree correspond, and so do their parts. -/
def TypeShape.ExpandsTo (tree? : TypeRef → Option TypeTree) : TypeShape → TypeTree → Prop
  | .void, .void | .label, .label => True
  | .integer bits, .integer width => bits = width
  | .array element length, .array tree count => tree? element = some tree ∧ length = count
  | .struct fields packed, .struct trees mark => fields.mapM tree? = some trees ∧ packed = mark
  | .function result parameters variadic, .function tree trees mark =>
      tree? result = some tree ∧ parameters.mapM tree? = some trees ∧ variadic = mark
  | _, _ => False

theorem TypeShape.expandsTo_of_expand {tree? : TypeRef → Option TypeTree} {shape : TypeShape}
    {tree : TypeTree} (expanded : shape.expand tree? = some tree) : shape.ExpandsTo tree? tree := by
  cases shape with
  | void =>
      obtain rfl := Option.some.inj expanded
      trivial
  | label =>
      obtain rfl := Option.some.inj expanded
      trivial
  | integer bits =>
      obtain rfl := Option.some.inj expanded
      rfl
  | array element length =>
      obtain ⟨part, known, rfl⟩ := Option.map_eq_some_iff.mp expanded
      exact ⟨known, rfl⟩
  | struct fields packed =>
      obtain ⟨parts, known, rfl⟩ := Option.map_eq_some_iff.mp expanded
      exact ⟨known, rfl⟩
  | function result parameters variadic =>
      obtain ⟨returned, known, rest⟩ := Option.bind_eq_some_iff.mp expanded
      obtain ⟨taken, others, equal⟩ := Option.bind_eq_some_iff.mp rest
      obtain rfl := Option.some.inj equal
      exact ⟨known, others, rfl⟩

/-- Only the trees of the components matter. -/
theorem TypeShape.expand_congr {one two : TypeRef → Option TypeTree} {shape : TypeShape}
    (same : ∀ component ∈ shape.components, one component = two component) :
    shape.expand one = shape.expand two := by
  have lists : ∀ {refs : List TypeRef}, (∀ component ∈ refs, one component = two component) →
      refs.mapM one = refs.mapM two := by
    intro refs each
    induction refs with
    | nil => rfl
    | cons first rest inductionHypothesis =>
        rw [List.mapM_cons, List.mapM_cons, each first List.mem_cons_self,
          inductionHypothesis fun component listed =>
            each component (List.mem_cons_of_mem _ listed)]
  cases shape with
  | array element length => rw [expand, expand, same element List.mem_cons_self]
  | struct fields packed =>
      have parts : fields.mapM one = fields.mapM two := lists same
      rw [expand, expand, parts]
  | function result parameters variadic =>
      have taken := lists fun component listed => same component (List.mem_cons_of_mem _ listed)
      simp only [expand, same result List.mem_cons_self, taken]
  | _ => rfl

namespace Context

variable {settings : Settings} {context : Context}

/-! ### Expansion -/

theorem treeWithin_succ (types : Array TypeShape) (budget : Nat) (type : TypeRef) :
    treeWithin types (budget + 1) type =
      types[type]?.bind (TypeShape.expand (treeWithin types budget)) := by
  rw [treeWithin]
  cases types[type]? with
  | none => rfl
  | some shape => cases shape <;> rfl

/-- Any budget above the position is enough. -/
theorem Grounded.treeWithin_eq (grounded : context.Grounded) {type : TypeRef} {budget : Nat}
    (enough : type < budget) : treeWithin context.types budget type = context.tree? type := by
  induction type using Nat.strongRecOn generalizing budget with
  | ind type inductionHypothesis =>
      cases budget with
      | zero => exact absurd enough (Nat.not_lt_zero type)
      | succ budget =>
          rw [tree?, treeWithin_succ, treeWithin_succ]
          cases known : context.types[type]? with
          | none => rfl
          | some shape =>
              apply TypeShape.expand_congr
              intro component member
              have earlier := grounded.components type shape known component member
              have within : component < budget :=
                Nat.lt_of_lt_of_le earlier (Nat.le_of_lt_succ enough)
              rw [inductionHypothesis component earlier within,
                inductionHypothesis component earlier earlier]

/-- The tree of a type is that of its shape. -/
theorem Grounded.tree?_eq (grounded : context.Grounded) (type : TypeRef) :
    context.tree? type = (context.shape? type).bind (TypeShape.expand context.tree?) := by
  rw [tree?, treeWithin_succ, shape?]
  cases known : context.types[type]? with
  | none => rfl
  | some shape =>
      apply TypeShape.expand_congr
      intro component member
      exact grounded.treeWithin_eq (grounded.components type shape known component member)

/-! ### Trees of all types -/

theorem exists_trees {holds : TypeTree → Prop} {refs : List TypeRef}
    (each : ∀ type ∈ refs, ∃ tree, context.tree? type = some tree ∧ holds tree) :
    ∃ trees, refs.mapM context.tree? = some trees ∧ ∀ tree ∈ trees, holds tree := by
  induction refs with
  | nil => exact ⟨[], rfl, by simp⟩
  | cons first rest inductionHypothesis =>
      obtain ⟨tree, expanded, held⟩ := each first List.mem_cons_self
      obtain ⟨trees, others, allHeld⟩ :=
        inductionHypothesis fun type listed => each type (List.mem_cons_of_mem _ listed)
      refine ⟨tree :: trees, ?_, List.forall_mem_cons.mpr ⟨held, allHeld⟩⟩
      rw [List.mapM_cons, expanded, others]
      rfl

section Trees

variable (canonical : context.Canonical settings) (grounded : context.Grounded)

include canonical grounded

/-- A sized type expands to a flat tree. -/
theorem Canonical.flat_tree {type : TypeRef} (sized : SizedBy context.shape? type) :
    ∃ tree, context.tree? type = some tree ∧ tree.Flat := by
  induction type using Nat.strongRecOn with
  | ind type inductionHypothesis =>
      obtain ⟨shape, known, isSized⟩ := sized
      have stands := canonical.shapeAt grounded known
      rw [grounded.tree?_eq, known, Option.bind_some]
      cases shape with
      | void => cases isSized
      | label => cases isSized
      | integer bits => exact ⟨.integer bits, rfl, .integer⟩
      | array element length =>
          have earlier := stands.components element List.mem_cons_self
          obtain ⟨tree, expanded, flat⟩ :=
            inductionHypothesis element earlier (stands.element element length rfl)
          refine ⟨.array tree length, ?_, .array flat⟩
          rw [TypeShape.expand, expanded, Option.map_some]
      | struct fields packed =>
          have each : ∀ field ∈ fields, ∃ tree, context.tree? field = some tree ∧ tree.Flat :=
            fun field listed => inductionHypothesis field (stands.components field listed)
              (stands.fields fields packed rfl field listed)
          obtain ⟨trees, expanded, flat⟩ := exists_trees each
          refine ⟨.struct trees packed, ?_, .struct flat⟩
          rw [TypeShape.expand, expanded, Option.map_some]
      | function result parameters variadic => cases isSized

/-- Every type of the table expands, to a proper tree. -/
theorem Canonical.proper_tree {type : TypeRef} {shape : TypeShape}
    (known : context.shape? type = some shape) :
    ∃ tree, context.tree? type = some tree ∧ tree.Proper := by
  have whenSized : shape.isSized = true → ∃ tree, context.tree? type = some tree ∧ tree.Proper := by
    intro isSized
    obtain ⟨tree, expanded, flat⟩ := canonical.flat_tree grounded ⟨shape, known, isSized⟩
    exact ⟨tree, expanded, .flat flat⟩
  have expansion : context.tree? type = shape.expand context.tree? := by
    rw [grounded.tree?_eq, known, Option.bind_some]
  cases shape with
  | void => exact ⟨.void, expansion, .flat .void⟩
  | label => exact ⟨.label, expansion, .flat .label⟩
  | function result parameters variadic =>
      have stands := canonical.shapeAt grounded known
      have returned : ∃ tree, context.tree? result = some tree ∧ tree.Flat := by
        rcases stands.result result parameters variadic rfl with sized | isVoid
        · exact canonical.flat_tree grounded sized
        · refine ⟨.void, ?_, .void⟩
          rw [grounded.tree?_eq, isVoid]
          rfl
      obtain ⟨tree, expanded, flat⟩ := returned
      obtain ⟨trees, others, allFlat⟩ := exists_trees fun parameter listed =>
        canonical.flat_tree grounded
          (stands.parameters result parameters variadic rfl parameter listed)
      refine ⟨.function tree trees variadic, ?_, .function flat allFlat⟩
      rw [expansion, TypeShape.expand, expanded, others]
      rfl
  | _ => exact whenSized rfl

end Trees

/-! ### One tree, one type -/

/-- Lists with the same trees are the same, if the trees of their members are told apart. -/
theorem refs_eq_of_trees {left right : List TypeRef} {trees : List TypeTree}
    (each : ∀ one ∈ left, ∀ two tree, context.tree? one = some tree →
      context.tree? two = some tree → one = two)
    (leftTrees : left.mapM context.tree? = some trees)
    (rightTrees : right.mapM context.tree? = some trees) : left = right := by
  rw [mapM_eq_some] at leftTrees rightTrees
  induction leftTrees generalizing right with
  | nil => exact (List.forall₂_nil_right_iff.mp rightTrees).symm
  | cons head tail inductionHypothesis =>
      obtain ⟨two, rest, same, others, rfl⟩ := List.forall₂_cons_right_iff.mp rightTrees
      rw [each _ List.mem_cons_self two _ head same, inductionHypothesis
        (fun one listed => each one (List.mem_cons_of_mem _ listed)) others]

/-- Shapes with one tree are equal if their components with one tree are. -/
theorem shape_eq_of_expand {left right : TypeShape} {tree : TypeTree}
    (each : ∀ one ∈ left.components, ∀ two tree, context.tree? one = some tree →
      context.tree? two = some tree → one = two)
    (leftTree : left.expand context.tree? = some tree)
    (rightTree : right.expand context.tree? = some tree) : left = right := by
  have leftParts := TypeShape.expandsTo_of_expand leftTree
  have rightParts := TypeShape.expandsTo_of_expand rightTree
  cases tree with
  | void =>
      cases left with
      | void =>
          cases right with
          | void => rfl
          | _ => exact rightParts.elim
      | _ => exact leftParts.elim
  | label =>
      cases left with
      | label =>
          cases right with
          | label => rfl
          | _ => exact rightParts.elim
      | _ => exact leftParts.elim
  | integer width =>
      cases left with
      | integer bits =>
          cases right with
          | integer other =>
              rw [show bits = width from leftParts, show other = width from rightParts]
          | _ => exact rightParts.elim
      | _ => exact leftParts.elim
  | array part count =>
      cases left with
      | array element length =>
          cases right with
          | array other otherLength =>
              have elements : element = other :=
                each element List.mem_cons_self other part leftParts.1 rightParts.1
              rw [elements, leftParts.2, rightParts.2]
          | _ => exact rightParts.elim
      | _ => exact leftParts.elim
  | struct parts mark =>
      cases left with
      | struct fields packed =>
          cases right with
          | struct others otherPacked =>
              have lists : fields = others := refs_eq_of_trees each leftParts.1 rightParts.1
              rw [lists, leftParts.2, rightParts.2]
          | _ => exact rightParts.elim
      | _ => exact leftParts.elim
  | function returned taken mark =>
      cases left with
      | function result parameters variadic =>
          cases right with
          | function other others otherVariadic =>
              have results : result = other :=
                each result List.mem_cons_self other returned leftParts.1 rightParts.1
              have lists : parameters = others := refs_eq_of_trees
                (fun one listed => each one (List.mem_cons_of_mem _ listed))
                leftParts.2.1 rightParts.2.1
              rw [results, lists, leftParts.2.2, rightParts.2.2]
          | _ => exact rightParts.elim
      | _ => exact leftParts.elim

section Unique

variable (canonical : context.Canonical settings) (grounded : context.Grounded)

include canonical grounded

theorem Canonical.tree?_injective {first second : TypeRef} {tree : TypeTree}
    (firstTree : context.tree? first = some tree) (secondTree : context.tree? second = some tree) :
    first = second := by
  induction first using Nat.strongRecOn generalizing second tree with
  | ind first inductionHypothesis =>
      rw [grounded.tree?_eq] at firstTree secondTree
      obtain ⟨shape, known, expanded⟩ := Option.bind_eq_some_iff.mp firstTree
      obtain ⟨other, otherKnown, otherExpanded⟩ := Option.bind_eq_some_iff.mp secondTree
      have shapes : shape = other := by
        apply shape_eq_of_expand _ expanded otherExpanded
        intro one listed two part oneTree twoTree
        exact inductionHypothesis one (grounded.components first shape known one listed) oneTree
          twoTree
      rw [← shapes] at otherKnown
      exact canonical.distinct first second shape known otherKnown

/-- The text of a type is that of a proper tree, so it names the type. -/
theorem Canonical.typeText?_injective {first second : TypeRef} {text : String}
    (firstText : context.typeText? first = some text)
    (secondText : context.typeText? second = some text) : first = second := by
  obtain ⟨one, firstTree, oneText⟩ := Option.map_eq_some_iff.mp firstText
  obtain ⟨two, secondTree, twoText⟩ := Option.map_eq_some_iff.mp secondText
  have proper : ∀ {type : TypeRef} {tree : TypeTree}, context.tree? type = some tree →
      tree.Proper := by
    intro type tree expanded
    have found := expanded
    rw [grounded.tree?_eq] at found
    obtain ⟨shape, known, _⟩ := Option.bind_eq_some_iff.mp found
    obtain ⟨other, otherExpanded, isProper⟩ := canonical.proper_tree grounded known
    rwa [Option.some.inj (expanded.symm.trans otherExpanded)]
  have trees : one = two :=
    (proper firstTree).text_injective (proper secondTree) (oneText.trans twoText.symm)
  rw [← trees] at secondTree
  exact canonical.tree?_injective grounded firstTree secondTree

/-- Formatting succeeds on every type of the context, with the text of its tree. -/
theorem Canonical.formatType_ok {type : TypeId} (issued : context.Issued (.type type)) :
    ∃ tree, context.tree? type.index = some tree ∧ context.formatType type = .ok tree.text := by
  obtain ⟨home, inside⟩ := issued
  have known : context.shape? type.index = some context.types[type.index] :=
    Array.getElem?_eq_getElem inside
  obtain ⟨tree, expanded, _⟩ := canonical.proper_tree grounded known
  refine ⟨tree, expanded, bind_eq_ok.mpr ⟨_, resolveType_eq_ok.mpr ⟨home, known⟩, ?_⟩⟩
  rw [typeText?, expanded, Option.map_some]
  rfl

end Unique

end Context

end TypedIR

/-! ## Growth -/

namespace TypedIR

/-- The forms of types whose values can be stored, passed and returned. -/
def TypeTree.isSized : TypeTree → Bool
  | .integer _ | .array _ _ | .struct _ _ => true
  | .void | .label | .function _ _ _ => false

variable {settings : Settings} {effect : Effect} {context before after : Context}

theorem Changes.shapes (changes : Changes settings effect before after) :
    ∀ type shape, before.shape? type = some shape → after.shape? type = some shape := by
  induction changes with
  | refl => exact fun _ _ known => known
  | tail _ change inductionHypothesis =>
      exact fun type shape known =>
        change.persists.shapes type shape (inductionHypothesis type shape known)

namespace Context

/-- The invariants of the table of types and those of all tables. -/
structure Regular (settings : Settings) (context : Context) : Prop where
  canonical : context.Canonical settings
  coherent : context.Coherent

theorem regular_empty (settings : Settings) (id : ContextId) (native : NativeHandle)
    (moduleName : String) : (empty id native moduleName).Regular settings :=
  ⟨canonical_empty settings id native moduleName, coherent_empty id native moduleName⟩

theorem Regular.changes (regular : before.Regular settings)
    (changes : Changes settings effect before after) : after.Regular settings := by
  induction changes with
  | refl => exact regular
  | tail _ change inductionHypothesis =>
      exact ⟨inductionHypothesis.canonical.step change, inductionHypothesis.coherent.step change⟩

/-! ### Trees -/

/-- A type keeps its tree where structures stay. -/
theorem Regular.tree?_of_shapes (regular : before.Regular settings) (groundedAfter : after.Grounded)
    (shapes : ∀ type shape, before.shape? type = some shape → after.shape? type = some shape)
    {type : TypeRef} {tree : TypeTree} (known : before.tree? type = some tree) :
    after.tree? type = some tree := by
  have groundedBefore := regular.coherent.grounded
  induction type using Nat.strongRecOn generalizing tree with
  | ind type inductionHypothesis =>
      have expansion := known
      rw [groundedBefore.tree?_eq] at expansion
      obtain ⟨shape, stored, expanded⟩ := Option.bind_eq_some_iff.mp expansion
      -- Each component has a tree before, and keeps it.
      have parts : ∀ component ∈ shape.components,
          after.tree? component = before.tree? component := by
        intro component listed
        have earlier := groundedBefore.components type shape stored component listed
        have inside := Nat.lt_trans earlier (lt_size_of_shape? stored)
        obtain ⟨part, partKnown, _⟩ :=
          regular.canonical.proper_tree groundedBefore (Array.getElem?_eq_getElem inside)
        rw [partKnown]
        exact inductionHypothesis component earlier partKnown
      rw [groundedAfter.tree?_eq, shapes type shape stored, Option.bind_some,
        TypeShape.expand_congr parts, expanded]

/-- A type keeps its tree through changes. -/
theorem Regular.tree?_mono (regular : before.Regular settings)
    (changes : Changes settings effect before after) {type : TypeRef} {tree : TypeTree}
    (known : before.tree? type = some tree) : after.tree? type = some tree :=
  regular.tree?_of_shapes (regular.changes changes).coherent.grounded changes.shapes known

section Shapes

variable (grounded : context.Grounded) {type : TypeRef} {tree : TypeTree}

include grounded

theorem Grounded.shape_of_tree (known : context.tree? type = some tree) :
    ∃ shape, context.shape? type = some shape ∧ shape.ExpandsTo context.tree? tree := by
  rw [grounded.tree?_eq] at known
  obtain ⟨shape, stored, expanded⟩ := Option.bind_eq_some_iff.mp known
  exact ⟨shape, stored, TypeShape.expandsTo_of_expand expanded⟩

theorem Grounded.tree_of_shape {shape : TypeShape} (stored : context.shape? type = some shape) :
    context.tree? type = shape.expand context.tree? := by
  rw [grounded.tree?_eq, stored, Option.bind_some]

/-- A type can be stored if the form of its tree says so. -/
theorem Grounded.sized_iff (known : context.tree? type = some tree) :
    SizedBy context.shape? type ↔ tree.isSized = true := by
  obtain ⟨shape, stored, expands⟩ := grounded.shape_of_tree known
  have forms : shape.isSized = tree.isSized := by
    cases tree <;> cases shape <;>
      simp_all [TypeShape.isSized, TypeTree.isSized, TypeShape.ExpandsTo]
  unfold SizedBy
  rw [stored, ← forms]
  simp

theorem Grounded.shape_integer_iff {bits : UInt32} :
    context.shape? type = some (.integer bits) ↔ context.tree? type = some (.integer bits) := by
  refine ⟨fun stored => grounded.tree_of_shape stored, fun known => ?_⟩
  obtain ⟨shape, stored, expands⟩ := grounded.shape_of_tree known
  cases shape with
  | integer width => rw [stored, show width = bits from expands]
  | _ => exact expands.elim

theorem Grounded.shape_void_iff :
    context.shape? type = some .void ↔ context.tree? type = some .void := by
  refine ⟨fun stored => grounded.tree_of_shape stored, fun known => ?_⟩
  obtain ⟨shape, stored, expands⟩ := grounded.shape_of_tree known
  cases shape with
  | void => exact stored
  | _ => exact expands.elim

theorem Grounded.shape_of_function {result : TypeTree} {parameters : List TypeTree}
    {variadic : Bool} (known : context.tree? type = some (.function result parameters variadic)) :
    ∃ returned taken, context.shape? type = some (.function returned taken variadic) ∧
      context.tree? returned = some result ∧ taken.mapM context.tree? = some parameters := by
  obtain ⟨shape, stored, expands⟩ := grounded.shape_of_tree known
  cases shape with
  | function returned taken mark =>
      obtain ⟨returns, takes, rfl⟩ := expands
      exact ⟨returned, taken, stored, returns, takes⟩
  | _ => exact expands.elim

end Shapes

end Context

/-- The tree of a structure that has just been interned. -/
theorem Interned.tree {shape : TypeShape} {type : TypeId} (regular : before.Regular settings)
    (interned : Interned settings before shape type after) :
    after.tree? type.index = shape.expand after.tree? :=
  (regular.changes interned.changes).coherent.grounded.tree_of_shape interned.known

end TypedIR
