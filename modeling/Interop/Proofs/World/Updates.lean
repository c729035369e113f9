import Interop.Proofs.World.Soundness

/-!
Updates of a world, one part at a time. Each keeps the invariant and lets the world only grow.
-/
namespace Interop

variable {w w' : World} {v : Value}

theorem mem_of_lookup {α β : Type} [BEq α] [LawfulBEq α] {entries : List (α × β)} {key : α}
    {value : β} (found : entries.lookup key = some value) : (key, value) ∈ entries := by
  obtain ⟨before, after, split, _⟩ := List.lookup_eq_some_iff.mp found
  simp [split]

namespace Heap

variable {heap heap' : Heap} {ref other : ObjectRef} {o : Object} {name : String}

theorem holds_alloc (heap : Heap) (o : Object) : (heap.alloc o).2.Holds (heap.alloc o).1 :=
  ⟨o, by simp [alloc, get?], rfl⟩

theorem Holds.alloc (held : heap.Holds ref) (o : Object) : (heap.alloc o).2.Holds ref := by
  obtain ⟨p, found, cls⟩ := held
  have inRange : ref.address < heap.objects.length := (List.getElem?_eq_some_iff.mp found).1
  exact ⟨p, (List.getElem?_append_left inRange).trans found, cls⟩

theorem Holds.write (held : heap.Holds ref) (other : ObjectRef) (contents : Contents) :
    (heap.write other contents).Holds ref := by
  obtain ⟨p, found, cls⟩ := held
  have there : heap.objects[ref.address]? = some p := found
  simp only [Holds, get?, Heap.write, List.getElem?_modify, there, Option.map_eq_map,
    Option.map_some]
  split
  · exact ⟨_, rfl, cls⟩
  · exact ⟨_, rfl, cls⟩

theorem get?_write (heap : Heap) (ref other : ObjectRef) (contents : Contents) :
    (heap.write ref contents).get? other =
      if other.address = ref.address then
        (heap.get? other).map (fun object => { object with contents := contents })
      else heap.get? other := by
  simp only [write, get?, List.getElem?_modify, eq_comm (a := ref.address)]
  split <;> simp

theorem mem_objects_write {contents : Contents} (member : o ∈ (heap.write ref contents).objects) :
    o ∈ heap.objects ∨ ∃ p, heap.get? ref = some p ∧ o = { p with contents := contents } := by
  obtain ⟨n, found⟩ := List.mem_iff_getElem?.mp member
  simp only [Heap.write, List.getElem?_modify] at found
  split at found
  · next same =>
    subst same
    obtain ⟨p, there, rfl⟩ := Option.map_eq_some_iff.mp found
    exact Or.inr ⟨p, there, rfl⟩
  · exact Or.inl (List.mem_of_getElem? (by simpa using found))

theorem mem_replaceField {fields : List (String × Value)} {entry : String × Value}
    (member : entry ∈ replaceField name v fields) : entry ∈ fields ∨ entry = (name, v) := by
  induction fields with
  | nil => cases member
  | cons first rest ih =>
    unfold replaceField at member
    split at member
    · next same =>
      rcases List.mem_cons.mp member with rfl | later
      · exact Or.inr (by rw [beq_iff_eq.mp same])
      · exact Or.inl (List.mem_cons_of_mem _ later)
    · rcases List.mem_cons.mp member with rfl | later
      · exact Or.inl List.mem_cons_self
      · exact (ih later).imp_left (List.mem_cons_of_mem _)

theorem lookup_replaceField_isSome (fields : List (String × Value)) (key : String) :
    ((replaceField name v fields).lookup key).isSome = (fields.lookup key).isSome := by
  induction fields with
  | nil => rfl
  | cons first rest ih =>
    obtain ⟨other, old⟩ := first
    unfold replaceField
    split
    · simp only [List.lookup_cons]
      split <;> rfl
    · simp only [List.lookup_cons]
      split
      · rfl
      · exact ih

end Heap

namespace HandleTable

variable {P : ObjectRef → TypeId → Prop} {t t' t'' : HandleTable}

/-- From one table to the other handles keep their targets, and views stay within `P`. -/
structure Evolves (P : ObjectRef → TypeId → Prop) (t t' : HandleTable) : Prop where
  shown : (∀ h ∈ t.handles, P h.target h.view) → ∀ h ∈ t'.handles, P h.target h.view
  kept : ∀ {id h}, t.get? id = some h → ∃ h', t'.get? id = some h' ∧ h'.target = h.target

theorem Evolves.same (handles : t'.handles = t.handles) : Evolves P t t' := by
  constructor
  · rw [handles]
    exact fun shown => shown
  · intro id h found
    exact ⟨h, by rwa [get?, handles], rfl⟩

theorem Evolves.trans (first : Evolves P t t') (second : Evolves P t' t'') : Evolves P t t'' := by
  constructor
  · exact fun shown => second.shown (first.shown shown)
  · intro id h found
    obtain ⟨h', found', same⟩ := first.kept found
    obtain ⟨h'', found'', same'⟩ := second.kept found'
    exact ⟨h'', found'', same'.trans same⟩

theorem evolves_update (id : HandleId) {change : Handle → Handle}
    (target : ∀ h, (change h).target = h.target)
    (view : ∀ {h}, t.get? id = some h → P h.target h.view → P h.target (change h).view) :
    Evolves P t (t.update id change) := by
  constructor
  · intro shown h member
    obtain ⟨n, found⟩ := List.mem_iff_getElem?.mp member
    simp only [update, List.getElem?_modify] at found
    split at found
    · next same =>
      subst same
      obtain ⟨old, there, rfl⟩ := Option.map_eq_some_iff.mp found
      rw [target]
      exact view there (shown old (List.mem_of_getElem? there))
    · exact shown h (List.mem_of_getElem? (by simpa using found))
  · intro other h found
    have there : t.handles[other.index]? = some h := found
    simp only [get?, update, List.getElem?_modify, there, Option.map_eq_map, Option.map_some]
    split
    · exact ⟨_, rfl, target h⟩
    · exact ⟨_, rfl, rfl⟩

theorem evolves_add {h : Handle} (shown : P h.target h.view) : Evolves P t (t.add h).2 := by
  constructor
  · intro before other member
    rcases List.mem_append.mp member with old | new
    · exact before other old
    · cases List.mem_singleton.mp new
      exact shown
  · intro id other found
    have inRange : id.index < t.handles.length := (List.getElem?_eq_some_iff.mp found).1
    exact ⟨other, (List.getElem?_append_left inRange).trans found, rfl⟩

theorem evolves_retain (id : HandleId) : Evolves P t (t.retain id) :=
  evolves_update id (fun _ => rfl) (fun _ shown => shown)

theorem evolves_forget (id : HandleId) : Evolves P t (t.forget id) := .same (handles_forget t id)

theorem evolves_drop (id : HandleId) : Evolves P t (t.drop id) := by
  have dropped : Evolves P t (t.update id (fun h => { h with references := h.references - 1 })) :=
    evolves_update id (fun _ => rfl) (fun _ shown => shown)
  unfold drop
  dsimp only
  split
  · exact dropped
  · exact dropped.trans (evolves_forget id)

theorem evolves_foldl {change : HandleTable → HandleId → HandleTable}
    (step : ∀ t id, Evolves P t (change t id))
    (ids : List HandleId) (t : HandleTable) : Evolves P t (ids.foldl change t) := by
  induction ids generalizing t with
  | nil => exact .same rfl
  | cons id rest ih => exact (step t id).trans (ih _)

theorem evolves_wrap {target : ObjectRef} {view : TypeId} (shown : P target view)
    (dispatcher : Option DispatcherId) :
    Evolves P t (t.wrap target view dispatcher).2 := by
  unfold wrap
  split
  · exact evolves_retain _
  · exact (evolves_add shown).trans (.same rfl)

theorem evolves_superView (shown : ∀ h ∈ t.handles, P h.target h.view) (id : HandleId) :
    Evolves P t (t.superView id).2 := by
  unfold superView
  split
  · exact .same rfl
  · next h found =>
    split
    · exact evolves_add (shown h (List.mem_of_getElem? found))
    · exact evolves_retain id

theorem evolves_takeSuperCall (id : HandleId) : Evolves P t (t.takeSuperCall id).2 := by
  unfold takeSuperCall
  split
  · exact evolves_update id (fun _ => rfl) (fun _ shown => shown)
  · exact .same rfl

end HandleTable

namespace World

/-- What no part of the invariant looks at may change. -/
theorem Sound.unaffected (sound : w.Sound) (registry : w'.registry = w.registry)
    (heap : w'.heap = w.heap) (memo : w'.memo = w.memo) (handles : w'.handles = w.handles)
    (natives : w'.nativeVariables = w.nativeVariables) :
    w'.Sound ∧ w.Grows w' := by
  refine ⟨⟨?_, ?_, ?_, ?_, ?_, ?_, ?_⟩, ?_, ?_, ?_, ?_⟩
  · rw [registry]
    exact sound.registry
  · rw [registry, heap]
    exact sound.code
  · rw [registry, heap]
    exact sound.objects
  · rw [heap]
    exact sound.statics
  · rw [heap, natives]
    exact sound.native_variables
  · rw [registry, heap, handles]
    exact sound.handles
  · rw [registry, memo]
    exact sound.memo
  · rw [registry]
    exact Registry.Extends.refl _
  · rw [heap]
    exact fun held => held
  · intro id h found
    rw [handle?, handles]
    exact ⟨h, found, rfl⟩
  · rw [handles]
    exact .refl _

theorem Sound.withRegistry {r : Registry} (sound : w.Sound) (settled : r.Settled)
    (larger : w.registry.Extends r)
    (code : ∀ {i t}, r.get? i = some t → ∀ v ∈ t.values, w.heap.Knows v) :
    Sound { w with registry := r } ∧ w.Grows { w with registry := r } := by
  refine ⟨⟨settled, code, ?_, sound.statics, sound.native_variables, ?_, ?_⟩, larger,
    fun held => held, fun {_ h} found => ⟨h, found, rfl⟩, .refl _⟩
  · intro o member
    exact (sound.objects o member).withTypes sound.registry settled larger
  · intro h member
    obtain ⟨held, assignable⟩ := sound.handles h member
    exact ⟨held, Registry.isAssignable_mono sound.registry settled larger assignable⟩
  · intro p a d entry
    exact Overload.typeDistance_mono sound.registry settled larger (sound.memo p a d entry)

/-- A heap in which references still lead where they led. -/
theorem Sound.withHeap {heap : Heap} (sound : w.Sound)
    (holds : ∀ {ref}, w.heap.Holds ref → heap.Holds ref)
    (objects : ∀ o ∈ heap.objects, o.Typed w.registry heap)
    (statics : ∀ entry ∈ heap.statics, heap.Knows entry.2) :
    Sound { w with heap := heap } ∧ w.Grows { w with heap := heap } := by
  refine ⟨⟨sound.registry, ?_, objects, statics, ?_, ?_, sound.memo⟩, Registry.Extends.refl _,
    holds, fun {_ h} found => ⟨h, found, rfl⟩, .refl _⟩
  · intro i t found v member
    exact (sound.code found v member).mono holds
  · intro entry member
    exact (sound.native_variables entry member).mono holds
  · intro h member
    obtain ⟨held, assignable⟩ := sound.handles h member
    exact ⟨holds held, assignable⟩

/-- A handle may show its object under a type. -/
def Shows (w : World) (target : ObjectRef) (view : TypeId) : Prop :=
  w.heap.Holds target ∧ w.registry.isAssignable target.cls view = true

theorem Sound.withHandles {handles : HandleTable} (sound : w.Sound)
    (evolves : w.handles.Evolves w.Shows handles) (uses : w.handles.Used handles) :
    Sound { w with handles := handles } ∧ w.Grows { w with handles := handles } :=
  ⟨⟨sound.registry, sound.code, sound.objects, sound.statics, sound.native_variables,
      evolves.shown sound.handles, sound.memo⟩,
    Registry.Extends.refl _, fun held => held, evolves.kept, uses⟩

variable {ref : ObjectRef} {o : Object} {heap : Heap} {name : String} {c : TypeId}

theorem Sound.alloc (sound : w.Sound) (typed : o.Typed w.registry w.heap) :
    Sound { w with heap := (w.heap.alloc o).2 } ∧
      w.Grows { w with heap := (w.heap.alloc o).2 } := by
  apply sound.withHeap
  · exact fun held => held.alloc o
  · intro p member
    rcases List.mem_append.mp member with old | new
    · exact (sound.objects p old).withObjects (fun held => held.alloc o)
    · cases List.mem_singleton.mp new
      exact typed.withObjects (fun held => held.alloc o)
  · intro entry member
    exact (sound.statics entry member).mono (fun held => held.alloc o)

theorem Sound.write {contents : Contents} (sound : w.Sound)
    (typed : ∀ {o}, w.heap.get? ref = some o →
      Object.Typed w.registry w.heap { o with contents := contents }) :
    Sound { w with heap := w.heap.write ref contents } ∧
      w.Grows { w with heap := w.heap.write ref contents } := by
  apply sound.withHeap
  · exact fun held => held.write ref contents
  · intro p member
    rcases Heap.mem_objects_write member with old | ⟨before, found, rfl⟩
    · exact (sound.objects p old).withObjects (fun held => held.write ref contents)
    · exact (typed found).withObjects (fun held => held.write ref contents)
  · intro entry member
    exact (sound.statics entry member).mono (fun held => held.write ref contents)

theorem Sound.typed (sound : w.Sound) (found : w.heap.get? ref = some o) :
    o.Typed w.registry w.heap :=
  sound.objects o (List.mem_of_getElem? found)

theorem Sound.setField (sound : w.Sound) (known : w.heap.Knows v)
    (written : w.heap.setField? ref name v = some heap) :
    Sound { w with heap := heap } ∧ w.Grows { w with heap := heap } := by
  unfold Heap.setField? at written
  split at written
  · next fields contents =>
    split at written
    · cases written
      obtain ⟨o, found, isFields⟩ := Option.map_eq_some_iff.mp contents
      apply sound.write
      intro p there
      cases found.symm.trans there
      have typed := sound.typed found
      simp only [Object.Typed, isFields] at typed ⊢
      obtain ⟨cls, notBoxed, covered, values⟩ := typed
      refine ⟨cls, notBoxed, ?_, ?_⟩
      · intro t listed f declared onInstance
        rw [Heap.lookup_replaceField_isSome]
        exact covered t listed f declared onInstance
      · intro entry member
        rcases Heap.mem_replaceField member with old | rfl
        · exact values entry old
        · exact known
    · cases written
  · cases written

/-- An element is written through a reference that names the array's class. -/
theorem Sound.setElement {index : Nat} (sound : w.Sound) (held : w.heap.Holds ref)
    (component : w.registry.component? ref.cls = some c) (known : w.heap.Knows v)
    (accepted : w.registry.accepts c v = true)
    (written : w.heap.setElement? ref index v = some heap) :
    Sound { w with heap := heap } ∧ w.Grows { w with heap := heap } := by
  obtain ⟨o, found, cls⟩ := held
  unfold Heap.setElement? at written
  rw [found] at written
  cases contents : o.contents with
  | fields fields => simp [contents] at written
  | elements elements =>
    simp only [Option.map_some, contents] at written
    split at written
    · cases written
      apply sound.write
      intro p there
      cases found.symm.trans there
      have typed := sound.typed found
      simp only [Object.Typed, contents] at typed ⊢
      obtain ⟨d, array, all⟩ := typed
      rw [cls, component] at array
      cases array
      refine ⟨c, cls ▸ component, ?_⟩
      intro u member
      rcases List.mem_or_eq_of_mem_set member with old | rfl
      · exact all u old
      · exact ⟨known, accepted⟩
    · cases written

theorem Sound.setStatic (sound : w.Sound) (declaring : TypeId) (name : String)
    (known : w.heap.Knows v) :
    Sound { w with heap := w.heap.setStatic declaring name v } ∧
      w.Grows { w with heap := w.heap.setStatic declaring name v } := by
  apply sound.withHeap
  · exact fun held => held
  · exact sound.objects
  · intro entry member
    rcases List.mem_cons.mp member with rfl | old
    · exact known
    · exact sound.statics entry (List.mem_filter.mp old).1

theorem Sound.field (sound : w.Sound) (found : w.heap.field? ref name = some v) :
    w.heap.Knows v := by
  unfold Heap.field? at found
  split at found
  · next fields contents =>
    obtain ⟨o, there, isFields⟩ := Option.map_eq_some_iff.mp contents
    have typed := sound.typed there
    simp only [Object.Typed, isFields] at typed
    exact typed.2.2.2 (name, v) (mem_of_lookup found)
  · cases found

/-- The elements of an array are of the component type of the class that references name. -/
theorem Sound.array (sound : w.Sound) (held : w.heap.Holds ref)
    (isArray : w.heap.isArray ref = true) :
    ∃ c, w.registry.component? ref.cls = some c ∧
      ∀ v ∈ w.heap.elements ref, w.heap.Knows v ∧ w.registry.accepts c v = true := by
  obtain ⟨o, found, cls⟩ := held
  have typed := sound.typed found
  unfold Heap.isArray at isArray
  unfold Heap.elements
  rw [found] at isArray ⊢
  cases contents : o.contents with
  | fields fields => simp [contents] at isArray
  | elements elements =>
    simp only [Object.Typed, contents, cls] at typed
    simpa only [Option.map_some, contents] using typed

theorem Sound.elements (sound : w.Sound) (member : v ∈ w.heap.elements ref) : w.heap.Knows v := by
  unfold Heap.elements at member
  split at member
  · next elements contents =>
    obtain ⟨o, there, isElements⟩ := Option.map_eq_some_iff.mp contents
    have typed := sound.typed there
    simp only [Object.Typed, isElements] at typed
    obtain ⟨c, _, all⟩ := typed
    exact (all v member).1
  · cases member

/-- The class that a reference names is an array type, or a class other than the boxed ones. -/
theorem Sound.cls (sound : w.Sound) (held : w.heap.Holds ref) :
    (∃ c, w.registry.component? ref.cls = some c) ∨
    (∃ t, w.registry.get? ref.cls = some t ∧ t.isClass = true) ∧ ref.cls.unboxedKind? = none := by
  obtain ⟨o, found, cls⟩ := held
  have typed := sound.typed found
  unfold Object.Typed at typed
  rw [cls] at typed
  split at typed
  · obtain ⟨c, component, _⟩ := typed
    exact Or.inl ⟨c, component⟩
  · exact Or.inr ⟨typed.1, typed.2.1⟩

/-- An object of an array class is an array. -/
theorem Sound.isArray_of_component (sound : w.Sound) (held : w.heap.Holds ref)
    (component : w.registry.component? ref.cls = some c) : w.heap.isArray ref = true := by
  obtain ⟨o, found, cls⟩ := held
  have typed := sound.typed found
  unfold Heap.isArray
  rw [found]
  cases contents : o.contents with
  | elements elements => simp [contents]
  | fields fields =>
    simp only [Object.Typed, contents, cls] at typed
    obtain ⟨⟨t, there, isClass⟩, _⟩ := typed
    simp only [Registry.component?, there, Option.bind_some] at component
    have array := TypeInfo.component?_eq.mp component
    simp [TypeInfo.isClass, array] at isClass

end World

namespace Registry

variable {r r' : Registry} {i c : TypeId} {t : TypeInfo}

/-- From one registry to the other only array types are new. -/
structure AddsArrays (r r' : Registry) : Prop where
  settled : Settled r'
  larger : Extends r r'
  known : ∀ {i t}, r'.get? i = some t → t.component? = none → r.get? i = some t

theorem AddsArrays.refl (settled : Settled r) : AddsArrays r r :=
  ⟨settled, Extends.refl r, fun found _ => found⟩

theorem AddsArrays.arrayOf (before : AddsArrays r r') (c : TypeId) :
    AddsArrays r (stateAfter (Registry.arrayOf c r')) where
  settled := before.settled.arrayOf c
  larger := before.larger.trans (before.settled.extends_arrayOf c)
  known := by
    intro i t found noArray
    exact before.known ((arrayOf_outcome r' c).known before.settled.coherent found noArray) noArray

theorem AddsArrays.lookup (settled : Settled r) (name : String) : AddsArrays r (r.lookup name).2 :=
  lookup_keeps (fun _ c before => before.arrayOf c) name (.refl settled)

/-- Array types have no members. -/
theorem values_of_array (coherent : Coherent r) (found : r.get? i = some t)
    (array : t.component? = some c) :
    t.values = [] := by
  rw [(coherent.fits found).array_shape c (TypeInfo.component?_eq.mp array)]
  rfl

/-- The values in a type that has been built stand in its draft or are no references. -/
theorem values_of_built {id : TypeId} {draft : TypeDraft} (success : r.buildType id draft = .ok t)
    (heap : Heap) (known : ∀ v ∈ draft.values, heap.Knows v) : ∀ v ∈ t.values, heap.Knows v := by
  unfold buildType at success
  obtain ⟨superclass, _, success⟩ := Except.bind_ok success
  obtain ⟨_, _, success⟩ := Except.bind_ok success
  obtain ⟨_, success⟩ := Except.unless_ok success
  obtain ⟨methods, methodsOk, success⟩ := Except.bind_ok success
  obtain ⟨constructors, constructorsOk, success⟩ := Except.bind_ok success
  obtain ⟨fields, fieldsOk, success⟩ := Except.bind_ok success
  cases success
  intro v member
  simp only [TypeDraft.values, List.mem_append, List.mem_flatMap] at known
  simp only [TypeInfo.values, List.mem_append, List.mem_flatMap, List.mem_map] at member
  rcases member with (⟨m, declared, inMethod⟩ | ⟨c, declared, inConstructor⟩) | ⟨f, declared, rfl⟩
  · obtain ⟨d, drafted, checked⟩ := Except.mapM_ok methodsOk m declared
    obtain ⟨rfl, _⟩ := checkMethod_ok checked
    exact known v (Or.inl (Or.inl ⟨d, drafted, List.mem_flatMap.mp inMethod⟩))
  · obtain ⟨d, drafted, checked⟩ := Except.mapM_ok constructorsOk c declared
    obtain ⟨rfl, _⟩ := checkConstructor_ok checked
    exact known v (Or.inl (Or.inr ⟨d, drafted, List.mem_flatMap.mp inConstructor⟩))
  · obtain ⟨d, drafted, checked⟩ := Except.mapM_ok fieldsOk f declared
    obtain ⟨_, _, _, given | null | ⟨kind, zero⟩⟩ := checkField_ok checked
    · exact known f.default (Or.inr ⟨d, drafted, by simp [given]⟩)
    · rw [null]
      trivial
    · rw [zero]
      cases kind <;> trivial

/-- All code of a registry occurs in another. -/
def CodeFrom (r r' : Registry) : Prop :=
  ∀ {i t}, r'.get? i = some t → ∀ v ∈ t.values, ∃ j u, r.get? j = some u ∧ v ∈ u.values

/-- A type in a reserved slot brings its own code only. -/
theorem codeFrom_place (coherent : Coherent r) (id : t.id = r.reserve.1)
    (own : ∀ v ∈ t.values, ∃ j u, r.get? j = some u ∧ v ∈ u.values) :
    CodeFrom r (r.reserve.2.place t false) := by
  intro i u found v member
  rw [get?_place (id ▸ coherent.reserved)] at found
  split at found
  · cases found
    exact own v member
  · exact ⟨i, u, ((reserve_frame r).1 i).symm.trans found, member⟩

theorem codeFrom_reserve : CodeFrom r r.reserve.2 :=
  fun {i t} found _ member => ⟨i, t, ((reserve_frame r).1 i).symm.trans found, member⟩

theorem SubclassOutcome.code {base : TypeId} {result : EStateM.Result NativeError Registry TypeId}
    (outcome : SubclassOutcome r base result) (coherent : Coherent r) :
    CodeFrom r (stateAfter result) := by
  cases outcome with
  | existing entry => exact fun {i t} found _ member => ⟨i, t, found, member⟩
  | refused e => exact fun {i t} found _ member => ⟨i, t, found, member⟩
  | taken e => exact codeFrom_reserve
  | @made bt found isClass isOpen =>
    -- The constructors are those of the base.
    refine codeFrom_place (t := subclassType r base bt) coherent rfl ?_
    intro v member
    refine ⟨base, bt, found, ?_⟩
    have inherited : ∃ c ∈ (subclassType r base bt).constructors, v ∈ c.values := by
      simpa [TypeInfo.values, subclassType, TypeInfo.blank] using member
    obtain ⟨c, declared, inBody⟩ := inherited
    simp only [subclassType, inheritedConstructors, constructors, (reserve_frame r).1, found,
      List.mem_map,
      List.mem_filter] at declared
    obtain ⟨d, ⟨original, _⟩, rfl⟩ := declared
    simp only [TypeInfo.values, List.mem_append, List.mem_flatMap]
    exact Or.inl (Or.inr ⟨d, original, inBody⟩)

theorem ImplementationOutcome.code {interface : TypeId}
    {result : EStateM.Result NativeError Registry TypeId}
    (outcome : ImplementationOutcome r interface result) (coherent : Coherent r) :
    CodeFrom r (stateAfter result) := by
  cases outcome with
  | existing entry => exact fun {i t} found _ member => ⟨i, t, found, member⟩
  | refused e => exact fun {i t} found _ member => ⟨i, t, found, member⟩
  | taken e => exact codeFrom_reserve
  | @made it found isInterface =>
    exact codeFrom_place (t := implementationType r interface it) coherent rfl nofun

end Registry

namespace World

theorem Sound.withMemo {memo : Overload.Memo} (sound : w.Sound)
    (justified : memo.Justified w.registry) :
    Sound { w with memo := memo } ∧ w.Grows { w with memo := memo } :=
  ⟨⟨sound.registry, sound.code, sound.objects, sound.statics, sound.native_variables, sound.handles,
    justified⟩,
    Registry.Extends.refl _, fun held => held, fun {_ h} found => ⟨h, found, rfl⟩, .refl _⟩

theorem Sound.withGenerated {r : Registry} (sound : w.Sound) (settled : r.Settled)
    (larger : w.registry.Extends r) (code : w.registry.CodeFrom r) :
    Sound { w with registry := r } ∧ w.Grows { w with registry := r } := by
  apply sound.withRegistry settled larger
  intro i t found v member
  obtain ⟨j, u, there, original⟩ := code found v member
  exact sound.code there v original

theorem Sound.withArrays {r : Registry} (sound : w.Sound) (added : w.registry.AddsArrays r) :
    Sound { w with registry := r } ∧ w.Grows { w with registry := r } := by
  apply sound.withRegistry added.settled added.larger
  intro i t found v member
  cases array : t.component? with
  | none => exact sound.code (added.known found array) v member
  | some c =>
    rw [Registry.values_of_array added.settled.coherent found array] at member
    cases member

/-- A definition brings one type besides arrays, made of its draft. -/
theorem Sound.withDefinition {r between : Registry} {id : TypeId} {draft : TypeDraft}
    (sound : w.Sound) (completed : Registry.Completed w.registry between id draft r)
    (known : ∀ v ∈ draft.values, w.heap.Knows v) :
    Sound { w with registry := r } ∧ w.Grows { w with registry := r } := by
  apply sound.withRegistry completed.settled completed.grows
  intro i t found v member
  cases array : t.component? with
  | none =>
    rcases completed.known found array with before | ⟨_, built⟩
    · exact sound.code before v member
    · exact Registry.values_of_built built w.heap known v member
  | some c =>
    rw [Registry.values_of_array completed.settled.coherent found array] at member
    cases member

end World

end Interop
