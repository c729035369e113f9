import Interop.Marshal.Inward
import Interop.Proofs.Registry.GeneratedTypes

/-!
The registry between operations. From the first registry on, whatever is defined, looked up, asked
for or generated, with or without success, the indexes describe the slots exactly, free slots are
used nowhere, and live types mention live types only.
-/
namespace Interop.Registry

variable {r : Registry}

/-- Defines a type whose references are resolved while its slot holds a placeholder. -/
def defineWith (resolver : TypeId → Resolver) (r : Registry) :
    EStateM.Result NativeError Registry TypeId × List Event :=
  let (id, r) := r.beginDefinition
  let (draft, r) := (resolver id).run r
  completeDefinition id draft r

inductive Operation where
  | define (draft : TypeDraft)
  | defineWith (resolver : TypeId → Resolver)
  | lookup (name : String)
  | arrayOf (component : TypeId)
  | newArray (world : World) (component : TypeId) (elements : List Value)
  | generateSubclass (base : TypeId)
  | generateImplementation (interface : TypeId)

/-- The registry after an operation, whether it succeeds or fails. -/
def Operation.apply (r : Registry) : Operation → Registry
  | define draft => stateAfter (r.define draft).1
  | defineWith resolver => stateAfter (r.defineWith resolver).1
  | lookup name => (r.lookup name).2
  | arrayOf component => stateAfter (r.arrayOf component)
  | newArray world component elements =>
    (stateAfter (Marshal.newArray component elements { world with registry := r })).registry
  | generateSubclass base => stateAfter (r.generateSubclass base).1
  | generateImplementation interface => stateAfter (r.generateImplementation interface).1

/-- The draft of a definition, and the registry in which it is completed. -/
def resolved (r : Registry) (resolver : TypeId → Resolver) : TypeDraft × Registry :=
  (resolver r.beginDefinition.1).run r.beginDefinition.2

theorem Settled.defineWith (before : Settled r) (resolver : TypeId → Resolver) :
    Completed r (r.resolved resolver).2 r.beginDefinition.1 (r.resolved resolver).1
      (stateAfter (r.defineWith resolver).1) :=
  (before.beginDefinition.resolve (resolver r.beginDefinition.1)).complete _

/-- A plain definition is one whose draft needs no slot, under a name that is not taken. -/
theorem define_eq (draft : TypeDraft) (r : Registry) :
    r.define draft =
      match r.named? draft.name with
      | some _ => (.error (.duplicateType draft.name) r, [])
      | none => r.defineWith (fun _ => .done draft) := rfl

/-- Array objects change the registry only by their type. -/
theorem newArray_registry (w : World) (component : TypeId) (elements : List Value) :
    (stateAfter (Marshal.newArray component elements w)).registry =
      stateAfter (Registry.arrayOf component w.registry) := by
  simp only [Marshal.newArray, bind, EStateM.bind, Task.onRegistry]
  cases Registry.arrayOf component w.registry with
  | error e r => rfl
  | ok array r =>
    have read : ∀ w : World, (get : Task NativeError World) w = .ok w w := fun _ => rfl
    simp only [read, Task.ofExcept]
    cases r.checkElements component 0 elements with
    | error e => rfl
    | ok _ => rfl

theorem Settled.apply (before : Settled r) (operation : Operation) :
    Settled (operation.apply r) ∧ Extends r (operation.apply r) := by
  have arrays : ∀ r' c, Settled r' ∧ Extends r r' →
      Settled (stateAfter (Registry.arrayOf c r')) ∧
        Extends r (stateAfter (Registry.arrayOf c r')) :=
    fun r' c between => ⟨between.1.arrayOf c, between.2.trans (between.1.extends_arrayOf c)⟩
  have same : Settled r ∧ Extends r r := ⟨before, Extends.refl r⟩
  have defined : ∀ resolver, Settled (stateAfter (r.defineWith resolver).1) ∧
      Extends r (stateAfter (r.defineWith resolver).1) := by
    intro resolver
    have completed := before.defineWith resolver
    exact ⟨completed.settled, completed.grows⟩
  cases operation with
  | define draft =>
    simp only [Operation.apply, define_eq]
    split
    · exact same
    · exact defined _
  | defineWith resolver => exact defined resolver
  | lookup name => exact lookup_keeps arrays name same
  | arrayOf component => exact arrays r component same
  | newArray world component elements =>
    simp only [Operation.apply, newArray_registry]
    exact arrays r component same
  | generateSubclass base => exact (generateSubclass_outcome r base).settled before
  | generateImplementation interface =>
    exact (generateImplementation_outcome r interface).settled before

theorem Settled.foldl_apply (before : Settled r) (operations : List Operation) :
    Settled (operations.foldl Operation.apply r) ∧
      Extends r (operations.foldl Operation.apply r) := by
  induction operations generalizing r with
  | nil => exact ⟨before, Extends.refl r⟩
  | cons operation rest ih =>
    obtain ⟨settled, larger⟩ := before.apply operation
    obtain ⟨settled', larger'⟩ := ih settled
    exact ⟨settled', larger.trans larger'⟩

/-- The registry after a sequence of operations. -/
def afterAll (operations : List Operation) : Registry := operations.foldl Operation.apply initial

theorem settled_afterAll (operations : List Operation) : Settled (afterAll operations) :=
  (settled_initial.foldl_apply operations).1

/-- What coherence and ranks imply holds between operations, and also inside a definition, whatever
references have been resolved there. -/
theorem everywhere_of_ranked {P : Registry → Prop}
    (holds : ∀ {r rank}, Coherent r → Ranked r rank → P r) (operations : List Operation)
    (resolver : TypeId → Resolver) :
    P (afterAll operations) ∧ P ((afterAll operations).resolved resolver).2 := by
  have settled := settled_afterAll operations
  have defining :=
    settled.beginDefinition.resolve (resolver (afterAll operations).beginDefinition.1)
  obtain ⟨_, ranked⟩ := settled.ranked
  obtain ⟨_, ranked', _⟩ := defining.ranked
  exact ⟨holds settled.coherent ranked, holds defining.coherent ranked'⟩

/-- A slot that no type is in and that nothing refers to. -/
structure Unused (r : Registry) (i : TypeId) : Prop where
  inRange : i.index < r.slots.length
  empty : r.get? i = none
  unnamed : ∀ n, r.named? n ≠ some i
  noArray : ∀ c, r.arrays.lookup c ≠ some i
  noComponent : r.arrays.lookup i = none
  noSubclass : ∀ b, r.subclasses.lookup b ≠ some i
  noSuperclass : r.subclasses.lookup i = none
  noImplementation : ∀ b, r.implementations.lookup b ≠ some i
  noInterface : r.implementations.lookup i = none
  unmentioned : ∀ {j t}, r.get? j = some t → i ∉ t.mentions

structure Consistent (r : Registry) : Prop where
  names : ∀ {n i}, r.named? n = some i → ∃ t, r.get? i = some t ∧ t.id = i ∧ t.name = n
  one_name : ∀ {n m i}, r.named? n = some i → r.named? m = some i → n = m
  free_nodup : r.free.Nodup
  free_unused : ∀ {i}, i ∈ r.free → Unused r i
  arrays : ∀ {c a}, r.arrays.lookup c = some a ↔ ∃ t, r.get? a = some t ∧ t.kind = .array c
  components : ∀ {c a}, r.arrays.lookup c = some a → ∃ u, r.get? c = some u ∧
    u.primitiveKind? ≠ some .void
  subclasses : ∀ {b g}, r.subclasses.lookup b = some g →
    ∃ t, r.get? g = some t ∧ t.generated ∧ t.superclass = some b
  implementations : ∀ {b g}, r.implementations.lookup b = some g →
    ∃ t, r.get? g = some t ∧ t.generated ∧ t.interfaces = [b]
  mentions : ∀ {i t}, r.get? i = some t → ∀ j ∈ t.mentions, ∃ u, r.get? j = some u
  idle : r.pending = []

/-- Whatever the indexes or a type refer to is there, so an empty free slot is not among it. -/
theorem Coherent.unused {i : TypeId} (coherent : Coherent r) (member : i ∈ r.free) :
    Unused r i := by
  obtain ⟨inRange, empty⟩ := coherent.free_empty member
  have absent : ∀ {j t}, r.get? j = some t → j ≠ i := by
    rintro j t found rfl
    rw [empty] at found
    cases found
  have unmentioned : ∀ {j t}, r.get? j = some t → i ∉ t.mentions := by
    intro j t found mentioned
    obtain ⟨u, there⟩ := (coherent.fits found).mentions i mentioned
    exact absent there rfl
  constructor
  case inRange => exact inRange
  case empty => exact empty
  case unnamed =>
    intro n named
    obtain ⟨t, found, _⟩ := coherent.names named
    exact absent found rfl
  case noArray =>
    intro c entry
    obtain ⟨t, found, _⟩ := coherent.arrays.mp entry
    exact absent found rfl
  case noComponent => exact coherent.no_array_over_empty empty
  case noSubclass =>
    intro b entry
    obtain ⟨t, found, _⟩ := coherent.subclasses entry
    exact absent found rfl
  case noSuperclass =>
    rw [Option.eq_none_iff_forall_ne_some]
    intro g entry
    obtain ⟨t, found, _, superclass⟩ := coherent.subclasses entry
    exact unmentioned found
      (TypeInfo.supers_subset_mentions (by simp [TypeInfo.supers, superclass]))
  case noImplementation =>
    intro b entry
    obtain ⟨t, found, _⟩ := coherent.implementations entry
    exact absent found rfl
  case noInterface =>
    rw [Option.eq_none_iff_forall_ne_some]
    intro g entry
    obtain ⟨t, found, _, interfaces⟩ := coherent.implementations entry
    exact unmentioned found
      (TypeInfo.supers_subset_mentions (by simp [TypeInfo.supers, interfaces]))
  case unmentioned => exact unmentioned

/-- Between operations the registry is consistent, however it was reached. -/
theorem registry_consistent (operations : List Operation) : Consistent (afterAll operations) := by
  obtain ⟨coherent, _, idle⟩ := settled_afterAll operations
  refine ⟨?_, ?_, coherent.free_nodup, coherent.unused, coherent.arrays, ?_, coherent.subclasses,
    coherent.implementations, ?_, idle⟩
  · intro n i named
    obtain ⟨t, found, name⟩ := coherent.names named
    exact ⟨t, found, coherent.ids found, name⟩
  · intro n m i first second
    obtain ⟨t, found, name⟩ := coherent.names first
    obtain ⟨u, there, other⟩ := coherent.names second
    rw [found] at there
    cases there
    exact name.symm.trans other
  · intro c a entry
    obtain ⟨t, found, array⟩ := coherent.arrays.mp entry
    exact (coherent.fits found).component c array
  · intro i t found
    exact (coherent.fits found).mentions

end Interop.Registry
