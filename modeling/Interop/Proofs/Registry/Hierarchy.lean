import Mathlib.Logic.Relation
import Interop.Proofs.Registry.Consistency
import Interop.Proofs.Registry.HopMetric

/-!
The hierarchy of types, however the registry was reached. Superclasses are classes open to
extension, interfaces extend interfaces only, and nothing inherits from itself, also where the slots
of failed definitions have been used again. Assignability over this hierarchy is a partial order,
and hops measure it.
-/
namespace Interop.Registry

variable {r : Registry} {i j : TypeId} {t : TypeInfo}

/-- A type is a class if it was generated. -/
def ClassIfGenerated (t : TypeInfo) : Prop := t.generated = true → t.isClass = true

/-- No generated type is anything but a class. -/
def GeneratesClasses (r : Registry) : Prop := ∀ ⦃i t⦄, r.get? i = some t → ClassIfGenerated t

/-- Arrays are not generated, so they need not be looked at. -/
theorem Coherent.generatesClasses (coherent : Coherent r)
    (others : ∀ {i t}, r.get? i = some t → t.component? = none → ClassIfGenerated t) :
    GeneratesClasses r := by
  intro i t found
  cases component : t.component? with
  | none => exact others found component
  | some c =>
    have shape := (coherent.fits found).array_shape c (TypeInfo.component?_eq.mp component)
    intro generated
    rw [shape] at generated
    cases generated

theorem GeneratesClasses.arrayOf (before : GeneratesClasses r) (settled : Settled r) (c : TypeId) :
    GeneratesClasses (stateAfter (Registry.arrayOf c r)) := by
  apply (settled.arrayOf c).coherent.generatesClasses
  intro i t found noArray
  exact before ((arrayOf_outcome r c).known settled.coherent found noArray)

theorem GeneratesClasses.defineWith (before : GeneratesClasses r) (settled : Settled r)
    (resolver : TypeId → Resolver) :
    GeneratesClasses (stateAfter (r.defineWith resolver).1) := by
  have completed := settled.defineWith resolver
  apply completed.settled.coherent.generatesClasses
  intro i t found noArray
  rcases completed.known found noArray with known | ⟨_, checked⟩
  · exact before known
  · have defining := settled.beginDefinition.resolve (resolver r.beginDefinition.1)
    have built := buildType_ok (defining.withHeader _).coherent checked
    intro generated
    rw [built.plain] at generated
    cases generated

theorem GeneratesClasses.place (before : GeneratesClasses r) (slot : Reserved r t.id)
    (isClass : t.isClass = true) : GeneratesClasses (r.place t false) := by
  intro i u found
  rw [get?_place slot] at found
  split at found
  · cases found
    exact fun _ => isClass
  · exact before found

theorem GeneratesClasses.congr {r' : Registry} (before : GeneratesClasses r)
    (same : ∀ i, r'.get? i = r.get? i) : GeneratesClasses r' := by
  intro i t found
  rw [same] at found
  exact before found

theorem GeneratesClasses.apply (before : GeneratesClasses r) (settled : Settled r)
    (operation : Operation) : GeneratesClasses (operation.apply r) := by
  have reserved : GeneratesClasses r.reserve.2 := before.congr (reserve_frame r).1
  have slot := settled.coherent.reserved
  cases operation with
  | define draft =>
    simp only [Operation.apply, define_eq]
    split
    · exact before
    · exact before.defineWith settled _
  | defineWith resolver => exact before.defineWith settled resolver
  | lookup name =>
    have asked : ∀ r' c, Settled r' ∧ GeneratesClasses r' →
        Settled (stateAfter (Registry.arrayOf c r')) ∧
          GeneratesClasses (stateAfter (Registry.arrayOf c r')) :=
      fun r' c between => ⟨between.1.arrayOf c, between.2.arrayOf between.1 c⟩
    exact (lookup_keeps asked name ⟨settled, before⟩).2
  | arrayOf component => exact before.arrayOf settled component
  | newArray world component elements =>
    simp only [Operation.apply, newArray_registry]
    exact before.arrayOf settled component
  | generateSubclass base =>
    have outcome := generateSubclass_outcome r base
    simp only [Operation.apply]
    generalize (generateSubclass base r).1 = result at outcome
    cases outcome with
    | existing entry => exact before
    | refused e => exact before
    | taken e => exact reserved
    | made found isClass isOpen =>
      exact reserved.place (t := subclassType r base _) slot rfl
  | generateImplementation interface =>
    have outcome := generateImplementation_outcome r interface
    simp only [Operation.apply]
    generalize (generateImplementation interface r).1 = result at outcome
    cases outcome with
    | existing entry => exact before
    | refused e => exact before
    | taken e => exact reserved
    | made found isInterface =>
      exact reserved.place (t := implementationType r interface _) slot rfl

theorem generatesClasses_afterAll (operations : List Operation) :
    GeneratesClasses (afterAll operations) := by
  induction operations using List.reverseRecOn with
  | nil =>
    have none : firstTypes.all (fun t => !t.generated) = true := by decide
    intro i t found generated
    have first := List.all_eq_true.mp none t (initial_get?_iff.mp found).1
    simp [generated] at first
  | append_singleton earlier operation ih =>
    have last : afterAll (earlier ++ [operation]) = operation.apply (afterAll earlier) := by
      simp [afterAll]
    rw [last]
    exact ih.apply (settled_afterAll earlier) operation

/-- One type names the other as its superclass or as one of its interfaces. -/
def Inherits (r : Registry) (i j : TypeId) : Prop := ∃ t, r.get? i = some t ∧ j ∈ t.supers

theorem Settled.acyclic (settled : Settled r) (i : TypeId) :
    ¬Relation.TransGen (Inherits r) i i := by
  obtain ⟨rank, ranked⟩ := settled.ranked
  have lower : ∀ {i j}, Inherits r i j → rank j < rank i := by
    rintro i j ⟨t, found, super⟩
    exact ranked found j (List.mem_append_left _ super)
  have falls : ∀ {j}, Relation.TransGen (Inherits r) i j → rank j < rank i := by
    intro j chain
    induction chain with
    | single edge => exact lower edge
    | tail _ edge ih => exact (lower edge).trans ih
  exact fun cycle => Nat.lt_irrefl _ (falls cycle)

structure WellFormed (r : Registry) : Prop where
  /-- Only the root class, interfaces and primitive types have no superclass. -/
  extended : ∀ {i t}, r.get? i = some t → i ≠ .object →
    t.isClass = true ∨ t.isArray = true ∨ t.generated = true → ∃ s, t.superclass = some s
  superclass : ∀ {i t s}, r.get? i = some t → t.superclass = some s →
    ∃ u, r.get? s = some u ∧ u.isClass = true ∧ u.modifiers.isFinal = false
  interfaces : ∀ {i t j}, r.get? i = some t → j ∈ t.interfaces →
    ∃ u, r.get? j = some u ∧ u.isInterface = true
  interface_alone : ∀ {i t}, r.get? i = some t → t.isInterface = true → t.superclass = none
  acyclic : ∀ i, ¬Relation.TransGen (Inherits r) i i

/-- The hierarchy is well formed in every registry that is reached, whatever failed on the way. -/
theorem wellFormed_afterAll (operations : List Operation) : WellFormed (afterAll operations) := by
  have settled := settled_afterAll operations
  have coherent := settled.coherent
  constructor
  case extended =>
    intro i t found notRoot reason
    have ofClass : t.isClass = true → ∃ s, t.superclass = some s :=
      fun isClass => coherent.rooted found (by simp [settled.idle]) isClass notRoot
    rcases reason with isClass | isArray | generated
    · exact ofClass isClass
    · obtain ⟨c, component⟩ := Option.isSome_iff_exists.mp isArray
      rw [(coherent.fits found).array_shape c (TypeInfo.component?_eq.mp component)]
      exact ⟨.object, rfl⟩
    · exact ofClass (generatesClasses_afterAll operations found generated)
  case superclass => exact fun found extended => (coherent.fits found).superclass _ extended
  case interfaces => exact fun found member => (coherent.fits found).interfaces _ member
  case interface_alone => exact fun found => (coherent.fits found).interface_alone
  case acyclic => exact settled.acyclic

/-- Assignability is a partial order with the root class on top of all references, and hops measure
how far apart two types are in it. -/
structure HopOrder (r : Registry) : Prop where
  refl : ∀ a, r.isAssignable a a = true
  trans : ∀ {a b c}, r.isAssignable a b = true → r.isAssignable b c = true →
    r.isAssignable a c = true
  triangle : ∀ {a b c m n}, r.hops a b = some m → r.hops b c = some n →
    ∃ l, r.hops a c = some l ∧ l ≤ m + n
  antisymm : ∀ {a b}, r.isAssignable a b = true → r.isAssignable b a = true → a = b
  root : ∀ {a t}, r.get? a = some t → t.isPrimitive = false → r.isAssignable a .object = true

/-- Whatever has been defined, looked up or generated, types are ordered by assignability and hops
measure it. -/
theorem hopOrder_afterAll (operations : List Operation) : HopOrder (afterAll operations) := by
  have settled := settled_afterAll operations
  have below {a b : TypeId} := isAssignable_iff (i := a) (j := b) settled
  constructor
  case refl => exact fun a => below.mpr (.refl a)
  case trans =>
    exact fun first second =>
      below.mpr ((below.mp first).trans settled.coherent (below.mp second))
  case triangle => exact hops_triangle settled
  case antisymm => exact fun up down => (below.mp up).antisymm settled (below.mp down)
  case root => exact fun found reference => below.mpr (settled.below_object found reference)

end Interop.Registry
