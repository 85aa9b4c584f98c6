import TypedIR.Proofs.Workspace.Store

/-!
Contract: context identities are given out once, each with a native handle.

Owns:
- the soundness of the list of free slots;
- how many identities a slot has given out, and that no change of a store takes one
  of them back;
- creation, which gives out a new identity, and destruction, after which the context
  is not found;
- the accounts of a store, one for each live context, and what each change of a store does to them:
  nothing, one more, or one less.

A slot gives out its generations in order. The present one of a free slot is still to
be given out; the present one of any other slot was given out last.
-/

/-! ## Identities -/

namespace TypedIR.Store

variable {store after : Store} {id other : ContextId} {context changed : Context}

/-- The free slots are there, are empty, and are listed once. -/
structure Sound (store : Store) : Prop where
  distinct : store.free.Nodup
  vacant : ∀ index ∈ store.free, ∃ generation, store.slots[index]? = some ⟨generation, none⟩

/-- How many identities a slot has given out. -/
def issuedBy (store : Store) (index : Nat) : Nat :=
  match store.slots[index]? with
  | none => 0
  | some slot => if index ∈ store.free then slot.generation else slot.generation + 1

/-- The identity was given out, though its context may be destroyed by now. -/
def HasIssued (store : Store) (id : ContextId) : Prop := id.generation < store.issuedBy id.index

theorem issuedBy_eq {index : Nat} {slot : Slot} (lookup : store.slots[index]? = some slot) :
    store.issuedBy index =
      if index ∈ store.free then slot.generation else slot.generation + 1 := by
  rw [issuedBy, lookup]

theorem sound_empty (settings : Settings) : (empty settings).Sound where
  distinct := List.nodup_nil
  vacant := by simp [empty]

theorem Sound.not_free (sound : store.Sound) (found : store.context? id = some context) :
    id.index ∉ store.free := by
  intro listed
  obtain ⟨slot, lookup, _, held⟩ := context?_eq_some.mp found
  obtain ⟨generation, vacant⟩ := sound.vacant _ listed
  rw [vacant] at lookup
  obtain rfl := Option.some.inj lookup
  cases held

/-- The identity of a live context is the one that its slot gave out last. -/
theorem Sound.issuedBy_of_live (sound : store.Sound) (found : store.context? id = some context) :
    store.issuedBy id.index = id.generation + 1 := by
  have taken := sound.not_free found
  obtain ⟨slot, lookup, generation, _⟩ := context?_eq_some.mp found
  rw [issuedBy_eq lookup, if_neg taken, generation]

theorem Sound.hasIssued_of_live (sound : store.Sound) (found : store.context? id = some context) :
    store.HasIssued id :=
  Nat.lt_of_lt_of_eq (Nat.lt_succ_self _) (sound.issuedBy_of_live found).symm

/-! ### Another context in a slot -/

theorem issuedBy_put {index slotIndex : Nat} :
    (store.put slotIndex changed).issuedBy index = store.issuedBy index := by
  unfold issuedBy put
  simp only [Array.getElem?_modify]
  by_cases same : slotIndex = index
  · rw [if_pos same]
    cases store.slots[index]? <;> rfl
  · rw [if_neg same]

theorem Sound.put (sound : store.Sound) (found : store.context? id = some context) :
    (store.put id.index changed).Sound where
  distinct := sound.distinct
  vacant := by
    intro index listed
    obtain ⟨generation, vacant⟩ := sound.vacant index listed
    have apart : id.index ≠ index := by
      rintro rfl
      exact sound.not_free found listed
    refine ⟨generation, ?_⟩
    show (store.slots.modify id.index _)[index]? = _
    rw [Array.getElem?_modify, if_neg apart, vacant]

/-! ### Creation -/

variable {native : NativeHandle} {name : String} {index : Nat} {rest : List Nat}

theorem create_of_nil (free : store.free = []) :
    store.create native name = (⟨store.slots.size, 0⟩, { store with
      slots := store.slots.push ⟨0, some (.empty ⟨store.slots.size, 0⟩ native name)⟩ }) := by
  rw [create, nextId, free]

theorem create_of_cons {generation : Nat} (free : store.free = index :: rest)
    (vacant : store.slots[index]? = some ⟨generation, none⟩) :
    store.create native name = (⟨index, generation⟩,
      { store.put index (.empty ⟨index, generation⟩ native name) with free := rest }) := by
  have next : store.nextId = ⟨index, generation⟩ := by
    rw [nextId, free]
    dsimp only
    rw [vacant]
    rfl
  rw [create, next, free]

/-- Creation gives out the first identity that a slot has not given out, and no other one. -/
theorem Sound.create_issues (sound : store.Sound) :
    (store.create native name).1.generation =
        store.issuedBy (store.create native name).1.index ∧
      ∀ index, (store.create native name).2.issuedBy index =
        if index = (store.create native name).1.index then store.issuedBy index + 1
        else store.issuedBy index := by
  cases free : store.free with
  | nil =>
      rw [create_of_nil free]
      have fresh : store.slots[store.slots.size]? = none := Array.getElem?_eq_none (Nat.le_refl _)
      constructor
      · rw [issuedBy, fresh]
      · intro index
        unfold issuedBy
        simp only [Array.getElem?_push, free, List.not_mem_nil, if_false]
        by_cases last : index = store.slots.size
        · rw [if_pos last, if_pos last, last, fresh]
        · rw [if_neg last, if_neg last]
  | cons reused rest =>
      have listed : reused ∈ store.free := free ▸ List.mem_cons_self
      have unlisted : reused ∉ rest := (List.nodup_cons.mp (free ▸ sound.distinct)).1
      obtain ⟨generation, vacant⟩ := sound.vacant reused listed
      rw [create_of_cons free vacant]
      constructor
      · rw [issuedBy_eq vacant, if_pos listed]
      · intro index
        unfold issuedBy
        simp only [Store.put, Array.getElem?_modify]
        by_cases same : index = reused
        · subst same
          rw [if_pos rfl, if_pos rfl, vacant]
          simp [listed, unlisted]
        · rw [if_neg (Ne.symm same), if_neg same, free]
          simp only [List.mem_cons, same, false_or]

theorem Sound.create_fresh (sound : store.Sound) (native : NativeHandle) (name : String) :
    ¬ store.HasIssued (store.create native name).1 :=
  fun issued => Nat.ne_of_lt issued sound.create_issues.1

/-- The context that creation gives out is there and empty. -/
theorem Sound.context?_created (sound : store.Sound) (native : NativeHandle) (name : String) :
    (store.create native name).2.context? (store.create native name).1 =
      some (.empty (store.create native name).1 native name) := by
  cases free : store.free with
  | nil =>
      rw [create_of_nil free]
      refine context?_eq_some.mpr
        ⟨⟨0, some (.empty ⟨store.slots.size, 0⟩ native name)⟩, ?_, rfl, rfl⟩
      simp
  | cons reused rest =>
      have listed : reused ∈ store.free := free ▸ List.mem_cons_self
      obtain ⟨generation, vacant⟩ := sound.vacant reused listed
      rw [create_of_cons free vacant]
      refine context?_eq_some.mpr ⟨⟨generation, some (.empty ⟨reused, generation⟩ native name)⟩, ?_,
        rfl, rfl⟩
      simp [Store.put, Array.getElem?_modify, vacant]

theorem Sound.hasIssued_created (sound : store.Sound) (native : NativeHandle) (name : String) :
    (store.create native name).2.HasIssued (store.create native name).1 := by
  obtain ⟨next, counted⟩ := @Sound.create_issues _ native name sound
  rw [HasIssued, counted, if_pos rfl, ← next]
  exact Nat.lt_succ_self _

theorem Sound.create (sound : store.Sound) : (store.create native name).2.Sound := by
  cases free : store.free with
  | nil =>
      rw [create_of_nil free]
      refine ⟨sound.distinct, ?_⟩
      intro index listed
      rw [free] at listed
      cases listed
  | cons reused rest =>
      have listed : reused ∈ store.free := free ▸ List.mem_cons_self
      obtain ⟨unlisted, distinct⟩ := List.nodup_cons.mp (free ▸ sound.distinct)
      obtain ⟨generation, vacant⟩ := sound.vacant reused listed
      rw [create_of_cons free vacant]
      refine ⟨distinct, ?_⟩
      intro index later
      obtain ⟨generation, empty⟩ := sound.vacant index (free ▸ List.mem_cons_of_mem _ later)
      have apart : reused ≠ index := by
        rintro rfl
        exact unlisted later
      refine ⟨generation, ?_⟩
      show (store.slots.modify reused _)[index]? = _
      rw [Array.getElem?_modify, if_neg apart, empty]

/-! ### Destruction -/

/-- A freed slot has its next identity still to give out, and a retired one has none, so either
has given out as many as before. -/
theorem Sound.issuedBy_destroy (sound : store.Sound)
    (done : store.destroy id = .ok (context, after)) (index : Nat) :
    after.issuedBy index = store.issuedBy index := by
  obtain ⟨found, rfl⟩ := destroy_done done
  have taken := sound.not_free found
  have before := sound.issuedBy_of_live found
  obtain ⟨slot, lookup, generation, _⟩ := context?_eq_some.mp found
  have inside : id.index < store.slots.size := (Array.getElem?_eq_some_iff.mp lookup).1
  by_cases same : id.index = index
  · subst same
    rw [before]
    by_cases more : id.generation < maxGeneration
    · simp [issuedBy, more, inside]
    · simp [issuedBy, more, inside, taken]
  · by_cases more : id.generation < maxGeneration
    · simp [issuedBy, more, same, Ne.symm same]
    · simp [issuedBy, more, same]

theorem Sound.destroy (sound : store.Sound) (done : store.destroy id = .ok (context, after)) :
    after.Sound := by
  obtain ⟨found, rfl⟩ := destroy_done done
  have taken := sound.not_free found
  obtain ⟨slot, lookup, _, _⟩ := context?_eq_some.mp found
  have inside : id.index < store.slots.size := (Array.getElem?_eq_some_iff.mp lookup).1
  have others : ∀ generation, ∀ index ∈ store.free, ∃ vacancy,
      (store.slots.setIfInBounds id.index ⟨generation, none⟩)[index]? = some ⟨vacancy, none⟩ := by
    intro generation index listed
    obtain ⟨vacancy, vacant⟩ := sound.vacant index listed
    have apart : id.index ≠ index := by
      rintro rfl
      exact taken listed
    exact ⟨vacancy, by rw [Array.getElem?_setIfInBounds, if_neg apart, vacant]⟩
  by_cases more : id.generation < maxGeneration
  · rw [if_pos more]
    refine ⟨List.nodup_cons.mpr ⟨taken, sound.distinct⟩, ?_⟩
    intro index listed
    rcases List.mem_cons.mp listed with rfl | old
    · exact ⟨_, by rw [Array.getElem?_setIfInBounds_self_of_lt inside]⟩
    · exact others _ index old
  · rw [if_neg more]
    exact ⟨sound.distinct, others _⟩

/-- The identity of a destroyed context is not found. -/
theorem context?_of_destroyed (done : store.destroy id = .ok (context, after)) :
    after.context? id = none := by
  obtain ⟨found, rfl⟩ := destroy_done done
  obtain ⟨slot, lookup, _, _⟩ := context?_eq_some.mp found
  have inside : id.index < store.slots.size := (Array.getElem?_eq_some_iff.mp lookup).1
  by_cases more : id.generation < maxGeneration
  · simp [context?, more, inside]
  · simp [context?, more, inside]

end TypedIR.Store

/-! ## Accounts -/

namespace TypedIR.Store

variable {store after : Store} {id : ContextId} {context changed : Context}
  {native : NativeHandle} {name : String}

/-- The live contexts with their native handles, in the order of their slots. -/
def accounts (store : Store) : List (ContextId × NativeHandle) :=
  store.contexts.map fun context => (context.id, context.native)

/-- Free slots are empty, and each live context carries the identity that it is found under. -/
structure Accountable (store : Store) : Prop where
  sound : store.Sound
  tagged : ∀ id context, store.context? id = some context → context.id = id

theorem accountable_empty (settings : Settings) : (empty settings).Accountable where
  sound := sound_empty settings
  tagged := by simp [empty, context?]

/-! ### One slot among the others -/

/-- Of all contexts, those of one slot stand between those of the others. -/
theorem contexts_around {slots : Array Slot} {index : Nat} {slot : Slot}
    (lookup : slots[index]? = some slot) :
    ∃ front back : List Context,
      slots.toList.filterMap Slot.context = front ++ slot.context.toList ++ back ∧
        ∀ other : Slot, (slots.setIfInBounds index other).toList.filterMap Slot.context =
          front ++ other.context.toList ++ back := by
  have listed : slots.toList[index]? = some slot := by rwa [Array.getElem?_toList]
  obtain ⟨inside, here⟩ := List.getElem?_eq_some_iff.mp listed
  have one : ∀ other : Slot, [other].filterMap Slot.context = other.context.toList := by
    intro other
    cases held : other.context <;> simp [held]
  refine ⟨(slots.toList.take index).filterMap Slot.context,
    (slots.toList.drop (index + 1)).filterMap Slot.context, ?_, fun other => ?_⟩
  · have split : slots.toList.take index ++ [slot] ++ slots.toList.drop (index + 1) =
        slots.toList := by
      rw [← here, List.append_assoc, List.singleton_append, List.getElem_cons_drop,
        List.take_append_drop]
    rw [← one, ← List.filterMap_append, ← List.filterMap_append, split]
  · rw [Array.toList_setIfInBounds, List.set_eq_take_append_cons_drop, if_pos inside, ← one,
      ← List.filterMap_append, ← List.filterMap_append, List.append_assoc]
    rfl

theorem modify_eq_setIfInBounds {slots : Array Slot} {index : Nat} {slot : Slot}
    (change : Slot → Slot) (lookup : slots[index]? = some slot) :
    slots.modify index change = slots.setIfInBounds index (change slot) := by
  have inside : index < slots.size := (Array.getElem?_eq_some_iff.mp lookup).1
  apply Array.ext_getElem?
  intro other
  rw [Array.getElem?_modify, Array.getElem?_setIfInBounds]
  by_cases same : index = other
  · rw [if_pos same, if_pos same, if_pos inside, ← same, lookup, Option.map_some]
  · rw [if_neg same, if_neg same]

theorem mem_contexts : context ∈ store.contexts ↔
    ∃ (index : Nat) (slot : Slot), store.slots[index]? = some slot ∧
      slot.context = some context := by
  unfold contexts
  rw [List.mem_filterMap]
  constructor
  · rintro ⟨slot, listed, held⟩
    obtain ⟨index, lookup⟩ := List.mem_iff_getElem?.mp listed
    exact ⟨index, slot, by rwa [← Array.getElem?_toList], held⟩
  · rintro ⟨index, slot, lookup, held⟩
    rw [← Array.getElem?_toList] at lookup
    exact ⟨slot, List.mem_of_getElem? lookup, held⟩

/-- The accounts are those of the contexts that look-up finds. -/
theorem Accountable.mem_accounts (accountable : store.Accountable) :
    (id, native) ∈ store.accounts ↔
      ∃ context, store.context? id = some context ∧ context.native = native := by
  unfold accounts
  rw [List.mem_map]
  constructor
  · rintro ⟨context, member, same⟩
    obtain ⟨rfl, rfl⟩ := Prod.mk.inj same
    obtain ⟨index, slot, lookup, held⟩ := mem_contexts.mp member
    have found : store.context? ⟨index, slot.generation⟩ = some context :=
      context?_eq_some.mpr ⟨slot, lookup, rfl, held⟩
    rw [accountable.tagged _ _ found]
    exact ⟨context, found, rfl⟩
  · rintro ⟨context, found, rfl⟩
    obtain ⟨slot, lookup, _, held⟩ := context?_eq_some.mp found
    exact ⟨context, mem_contexts.mpr ⟨id.index, slot, lookup, held⟩,
      by rw [accountable.tagged _ _ found]⟩

/-! ### Changes -/

/-- A context is replaced by one with the same identity and the same native handle. -/
theorem accounts_put (found : store.context? id = some context) (sameId : changed.id = context.id)
    (sameNative : changed.native = context.native) :
    (store.put id.index changed).accounts = store.accounts := by
  obtain ⟨slot, lookup, _, held⟩ := context?_eq_some.mp found
  obtain ⟨front, back, before, replaced⟩ := contexts_around lookup
  unfold accounts contexts put
  rw [modify_eq_setIfInBounds _ lookup, replaced, before, held]
  simp [sameId, sameNative]

theorem Accountable.put (accountable : store.Accountable)
    (found : store.context? id = some context) (sameId : changed.id = context.id) :
    (store.put id.index changed).Accountable where
  sound := accountable.sound.put found
  tagged := by
    intro other live lookup
    rw [context?_put found] at lookup
    by_cases same : other = id
    · rw [if_pos same] at lookup
      obtain rfl := Option.some.inj lookup
      rw [sameId, same]
      exact accountable.tagged id context found
    · rw [if_neg same] at lookup
      exact accountable.tagged other live lookup

theorem Sound.accounts_create (sound : store.Sound) :
    (store.create native name).2.accounts.Perm
      (((store.create native name).1, native) :: store.accounts) := by
  cases free : store.free with
  | nil =>
      rw [create_of_nil free]
      unfold accounts contexts
      rw [Array.toList_push, List.filterMap_append, List.map_append]
      exact List.perm_append_singleton _ _
  | cons reused rest =>
      obtain ⟨generation, vacant⟩ := sound.vacant reused (free ▸ List.mem_cons_self)
      rw [create_of_cons free vacant]
      obtain ⟨front, back, before, replaced⟩ := contexts_around vacant
      unfold accounts contexts Store.put
      dsimp only
      rw [modify_eq_setIfInBounds _ vacant, replaced, before]
      simp only [Option.toList_some, Option.toList_none, List.append_nil, List.append_assoc,
        List.map_append]
      exact List.perm_middle

theorem Accountable.create (accountable : store.Accountable) :
    (store.create native name).2.Accountable where
  sound := accountable.sound.create
  tagged := by
    intro id context found
    rcases context?_create found with ⟨rfl, rfl⟩ | old
    · rfl
    · exact accountable.tagged id context old

theorem accounts_destroy (done : store.destroy id = .ok (context, after)) :
    store.accounts.Perm ((context.id, context.native) :: after.accounts) := by
  obtain ⟨found, rfl⟩ := destroy_done done
  obtain ⟨slot, lookup, _, held⟩ := context?_eq_some.mp found
  obtain ⟨front, back, before, replaced⟩ := contexts_around lookup
  have emptied : ∀ generation free, (⟨store.settings,
      store.slots.setIfInBounds id.index ⟨generation, none⟩, free⟩ : Store).accounts =
        (front ++ back).map fun context => (context.id, context.native) := by
    intro generation free
    unfold accounts contexts
    dsimp only
    rw [replaced]
    simp
  have whole : store.accounts.Perm ((context.id, context.native) ::
      (front ++ back).map fun context => (context.id, context.native)) := by
    unfold accounts contexts
    rw [before, held]
    simp only [Option.toList_some, List.append_assoc, List.map_append]
    exact List.perm_middle
  by_cases more : id.generation < maxGeneration
  · rw [if_pos more, emptied]
    exact whole
  · rw [if_neg more, emptied]
    exact whole

theorem Accountable.destroy (accountable : store.Accountable)
    (done : store.destroy id = .ok (context, after)) : after.Accountable where
  sound := accountable.sound.destroy done
  tagged := fun other live found =>
    accountable.tagged other live ((destroy_ok done).2 other live found)

end TypedIR.Store
