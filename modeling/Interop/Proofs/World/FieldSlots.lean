import Interop.Proofs.Registry.Defaults
import Interop.Proofs.World.Guards

/-!
What the fields of an instance hold. An instance has one slot for each name, whichever type of its
hierarchy declares a field of that name. So a slot holds a value of some field of its name, and
which one depends on how the slot was written last: a fresh instance starts with the default of the
first declaration, and a write through a handle follows the declaration that the handle's view
shows. `SlotsTyped` says so, and each update of a world keeps it, except writes that ask for no
declaration.
-/
namespace Interop

variable {w w' w'' : World} {v : Value} {ref : ObjectRef} {name : String}

/-- The class or a type above it declares an instance field of the name that may hold the value. -/
def Registry.Declares (r : Registry) (cls : TypeId) (name : String) (v : Value) : Prop :=
  ∃ t ∈ r.searchOrder cls, ∃ f ∈ t.fields, f.name = name ∧ f.isStatic = false ∧ r.Admits f.type v

theorem Registry.searchOrder_mono {r r' : Registry} {cls : TypeId} {t : TypeInfo}
    (settled : r.Settled) (settled' : r'.Settled) (larger : r.Extends r')
    (listed : t ∈ r.searchOrder cls) : t ∈ r'.searchOrder cls := by
  obtain ⟨j, found, n, path⟩ := (Registry.mem_searchOrder settled).mp listed
  exact (Registry.mem_searchOrder settled').mpr ⟨j, larger found, n, path.mono larger⟩

theorem Registry.Declares.mono {r r' : Registry} {cls : TypeId} (declares : r.Declares cls name v)
    (settled : r.Settled) (settled' : r'.Settled) (larger : r.Extends r') :
    r'.Declares cls name v := by
  obtain ⟨t, listed, f, declared, named, onInstance, admits⟩ := declares
  exact ⟨t, Registry.searchOrder_mono settled settled' larger listed, f, declared, named,
    onInstance, admits.mono settled settled' larger⟩

/-- The reference leads to an object of its class, or is the target of a handle. In a sound world
the second case is part of the first. -/
def World.Refers (w : World) (ref : ObjectRef) : Prop :=
  w.heap.Holds ref ∨ ∃ id h, w.handle? id = some h ∧ h.target = ref

structure World.SlotsTyped (w : World) : Prop where
  registry : w.registry.Settled
  defaults : w.registry.DefaultsTyped
  views : ∀ h ∈ w.handles.handles, w.registry.isAssignable h.target.cls h.view = true
  slots : ∀ {ref o fields}, w.heap.get? ref = some o → o.contents = .fields fields →
    ∀ entry ∈ fields, ∃ owner, owner.address = ref.address ∧ w.Refers owner ∧
      w.registry.Declares owner.cls entry.1 entry.2

/-- From one world to the other types stay, handles keep their targets, and slots are typed. -/
structure World.Continues (w w' : World) : Prop where
  typed : w'.SlotsTyped
  registry : w.registry.Extends w'.registry
  targets : ∀ {id h}, w.handle? id = some h → ∃ h', w'.handle? id = some h' ∧ h'.target = h.target

theorem World.Continues.refl (typed : w.SlotsTyped) : w.Continues w :=
  ⟨typed, Registry.Extends.refl _, fun {_ h} found => ⟨h, found, rfl⟩⟩

theorem World.Continues.trans (first : w.Continues w') (second : w'.Continues w'') :
    w.Continues w'' := by
  refine ⟨second.typed, first.registry.trans second.registry, ?_⟩
  intro id h found
  obtain ⟨h', found', same⟩ := first.targets found
  obtain ⟨h'', found'', same'⟩ := second.targets found'
  exact ⟨h'', found'', same'.trans same⟩

namespace World.SlotsTyped

/-- What no part of the invariant looks at may change. -/
theorem unaffected (typed : w.SlotsTyped) (registry : w'.registry = w.registry)
    (heap : w'.heap.objects = w.heap.objects) (handles : w'.handles.handles = w.handles.handles) :
    w.Continues w' := by
  have handle : ∀ id, w'.handle? id = w.handle? id := by
    intro id
    rw [World.handle?, World.handle?, HandleTable.get?, HandleTable.get?, handles]
  have object : ∀ ref, w'.heap.get? ref = w.heap.get? ref := by
    intro ref
    rw [Heap.get?, Heap.get?, heap]
  refine ⟨⟨registry ▸ typed.registry, registry ▸ typed.defaults, ?_, ?_⟩, ?_, ?_⟩
  · rw [registry, handles]
    exact typed.views
  · intro ref o fields found contents entry member
    rw [object] at found
    obtain ⟨owner, address, refers, declares⟩ := typed.slots found contents entry member
    refine ⟨owner, address, ?_, registry ▸ declares⟩
    rcases refers with ⟨p, there, cls⟩ | ⟨id, h, live, target⟩
    · exact Or.inl ⟨p, (object owner).trans there, cls⟩
    · exact Or.inr ⟨id, h, (handle id).trans live, target⟩
  · rw [registry]
    exact Registry.Extends.refl _
  · intro id h live
    exact ⟨h, (handle id).trans live, rfl⟩

theorem withRegistry {r : Registry} (typed : w.SlotsTyped) (settled : r.Settled)
    (larger : w.registry.Extends r) (defaults : r.DefaultsTyped) :
    w.Continues { w with registry := r } := by
  refine ⟨⟨settled, defaults, ?_, ?_⟩, larger, fun {_ h} live => ⟨h, live, rfl⟩⟩
  · intro h member
    exact Registry.isAssignable_mono typed.registry settled larger (typed.views h member)
  · intro ref o fields found contents entry member
    obtain ⟨owner, address, refers, declares⟩ := typed.slots found contents entry member
    exact ⟨owner, address, refers, declares.mono typed.registry settled larger⟩

theorem withArrays {r : Registry} (typed : w.SlotsTyped) (added : w.registry.AddsArrays r) :
    w.Continues { w with registry := r } :=
  typed.withRegistry added.settled added.larger
    (typed.defaults.grow typed.registry added.settled added.larger
      fun found noArray => Or.inl (added.known found noArray))

/-- A handle may show an object under a type that the object's class is assignable to. -/
def Viewable (r : Registry) (ref : ObjectRef) (view : TypeId) : Prop :=
  r.isAssignable ref.cls view = true

theorem withHandles {handles : HandleTable} (typed : w.SlotsTyped)
    (evolves : w.handles.Evolves (Viewable w.registry) handles) :
    w.Continues { w with handles := handles } := by
  refine ⟨⟨typed.registry, typed.defaults, evolves.shown typed.views, ?_⟩,
    Registry.Extends.refl _, evolves.kept⟩
  intro ref o fields found contents entry member
  obtain ⟨owner, address, refers, declares⟩ := typed.slots found contents entry member
  refine ⟨owner, address, refers.imp_right ?_, declares⟩
  rintro ⟨id, h, live, target⟩
  obtain ⟨h', live', same⟩ := evolves.kept live
  exact ⟨id, h', live', same.trans target⟩

/-- A heap in which references lead where they led, and every entry of an instance either was there
or is a value of a field of its name. -/
theorem withHeap {heap : Heap} (typed : w.SlotsTyped)
    (holds : ∀ {ref}, w.heap.Holds ref → heap.Holds ref)
    (slots : ∀ {ref o fields}, heap.get? ref = some o → o.contents = .fields fields →
      ∀ entry ∈ fields,
        (∃ p old, w.heap.get? ref = some p ∧ p.contents = .fields old ∧ entry ∈ old) ∨
        ∃ owner, owner.address = ref.address ∧ World.Refers { w with heap := heap } owner ∧
          w.registry.Declares owner.cls entry.1 entry.2) :
    w.Continues { w with heap := heap } := by
  refine ⟨⟨typed.registry, typed.defaults, typed.views, ?_⟩, Registry.Extends.refl _,
    fun {_ h} live => ⟨h, live, rfl⟩⟩
  intro ref o fields found contents entry member
  rcases slots found contents entry member with ⟨p, old, there, before, kept⟩ | written
  · obtain ⟨owner, address, refers, declares⟩ := typed.slots there before entry kept
    exact ⟨owner, address, refers.imp_left holds, declares⟩
  · exact written

theorem alloc {o : Object} (typed : w.SlotsTyped)
    (fresh : ∀ {fields}, o.contents = .fields fields → ∀ entry ∈ fields,
      w.registry.Declares o.cls entry.1 entry.2) :
    w.Continues { w with heap := (w.heap.alloc o).2 } := by
  refine typed.withHeap (fun held => held.alloc o) ?_
  intro ref p fields found contents entry member
  have listed : (w.heap.objects ++ [o])[ref.address]? = some p := found
  rcases Nat.lt_or_ge ref.address w.heap.objects.length with old | new
  · rw [List.getElem?_append_left old] at listed
    exact Or.inl ⟨p, fields, listed, contents, member⟩
  · have last : ref.address = w.heap.objects.length := by
      have bound := (List.getElem?_eq_some_iff.mp listed).1
      simp only [List.length_append, List.length_singleton] at bound
      omega
    rw [last, List.getElem?_concat_length] at listed
    cases listed
    refine Or.inr ⟨⟨ref.address, o.cls⟩, rfl, Or.inl ⟨o, ?_, rfl⟩, fresh contents entry member⟩
    exact found

theorem write {contents : Contents} (typed : w.SlotsTyped)
    (slots : ∀ {fields}, contents = .fields fields → ∀ entry ∈ fields,
      (∃ p old, w.heap.get? ref = some p ∧ p.contents = .fields old ∧ entry ∈ old) ∨
        (w.Refers ref ∧ w.registry.Declares ref.cls entry.1 entry.2)) :
    w.Continues { w with heap := w.heap.write ref contents } := by
  have holds : ∀ {other}, w.heap.Holds other → (w.heap.write ref contents).Holds other :=
    fun held => held.write ref contents
  refine typed.withHeap holds ?_
  intro other o fields found isFields entry member
  rw [Heap.get?_write] at found
  split at found
  · next same =>
    obtain ⟨p, there, rfl⟩ := Option.map_eq_some_iff.mp found
    rcases slots isFields entry member with ⟨q, old, there', before, kept⟩ | ⟨refers, declares⟩
    · have samePlace : w.heap.get? other = w.heap.get? ref := by rw [Heap.get?, Heap.get?, same]
      exact Or.inl ⟨q, old, samePlace.trans there', before, kept⟩
    · exact Or.inr ⟨ref, same.symm, refers.imp_left holds, declares⟩
  · exact Or.inl ⟨o, fields, found, isFields, member⟩

theorem setElement {index : Nat} {heap : Heap} (typed : w.SlotsTyped)
    (written : w.heap.setElement? ref index v = some heap) :
    w.Continues { w with heap := heap } := by
  unfold Heap.setElement? at written
  split at written
  · split at written
    · cases written
      exact typed.write nofun
    · cases written
  · cases written

/-- A slot may be written with a value of a field of its name. -/
theorem setField {heap : Heap} (typed : w.SlotsTyped) (refers : w.Refers ref)
    (declares : w.registry.Declares ref.cls name v)
    (written : w.heap.setField? ref name v = some heap) :
    w.Continues { w with heap := heap } := by
  unfold Heap.setField? at written
  split at written
  · next old contents =>
    split at written
    · cases written
      obtain ⟨p, there, isFields⟩ := Option.map_eq_some_iff.mp contents
      apply typed.write
      rintro fields ⟨⟩ entry member
      rcases Heap.mem_replaceField member with kept | rfl
      · exact Or.inl ⟨p, old, there, isFields, kept⟩
      · exact Or.inr ⟨refers, declares⟩
    · cases written
  · cases written

/-- A fresh instance starts with the defaults of the fields that its class and the types above it
declare. -/
theorem declares_default {cls : TypeId} {entry : String × Value} (typed : w.SlotsTyped)
    (member : entry ∈ w.registry.instanceDefaults cls) :
    w.registry.Declares cls entry.1 entry.2 := by
  obtain ⟨t, listed, f, declared, onInstance, rfl⟩ := Registry.instanceDefaults_source member
  obtain ⟨j, found, _⟩ := (Registry.mem_searchOrder typed.registry).mp listed
  exact ⟨t, listed, f, declared, rfl, onInstance, typed.defaults found f declared⟩

end World.SlotsTyped

end Interop
