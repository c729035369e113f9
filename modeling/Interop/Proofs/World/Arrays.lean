import Interop.Proofs.World.Moments

/-!
Arrays at every moment. Whichever way an array was made, its class is the array type of its
component, and its elements are of the component type. An array may be known under a type that
would take more, such as an array of the root class; what may be stored is up to its own class, and
a store that is refused leaves the world as it is.
-/
namespace Interop

variable {w w' : World} {ref other array : ObjectRef} {value : Value} {index : Nat}

namespace Heap

variable {heap : Heap} {contents : Contents}

theorem elements_write_self {elements : List Value} (found : (heap.get? ref).isSome) :
    (heap.write ref (.elements elements)).elements ref = elements := by
  obtain ⟨object, there⟩ := Option.isSome_iff_exists.mp found
  simp [Heap.elements, get?_write, there]

theorem elements_write_other (different : other.address ≠ ref.address) :
    (heap.write ref contents).elements other = heap.elements other := by
  simp [Heap.elements, get?_write, different]

theorem setElement?_eq (heap : Heap) (ref : ObjectRef) (index : Nat) (value : Value) :
    heap.setElement? ref index value =
      if index < (heap.elements ref).length then
        some (heap.write ref (.elements ((heap.elements ref).set index value)))
      else none := by
  unfold setElement? Heap.elements
  cases (heap.get? ref).map Object.contents with
  | none => simp
  | some contents => cases contents <;> simp

theorem isSome_of_elements (inRange : index < (heap.elements ref).length) :
    (heap.get? ref).isSome := by
  unfold Heap.elements at inRange
  cases found : heap.get? ref with
  | none => simp [found] at inRange
  | some object => rfl

end Heap

namespace Invoke

/-- All that writing an element can do. -/
inductive StoreOutcome (w : World) (array : ObjectRef) (index : Nat) (value : Value) :
    Task.Outcome NativeError Unit → Prop where
  | stored {c : TypeId} (component : w.registry.component? array.cls = some c)
      (accepted : w.registry.accepts c value = true)
      (inRange : index < (w.heap.elements array).length) :
      StoreOutcome w array index value (.ok ()
        { w with heap := w.heap.write array (.elements ((w.heap.elements array).set index value)) })
  | notArray {e : NativeError} (component : w.registry.component? array.cls = none) :
      StoreOutcome w array index value (.error e w)
  | mismatch {e : NativeError} {c : TypeId} (component : w.registry.component? array.cls = some c)
      (refused : w.registry.accepts c value = false) : StoreOutcome w array index value (.error e w)
  | outOfRange {e : NativeError} (outside : (w.heap.elements array).length ≤ index) :
      StoreOutcome w array index value (.error e w)

theorem storeElement_outcome (w : World) (array : ObjectRef) (index : Nat) (value : Value) :
    StoreOutcome w array index value (storeElement array index value w) := by
  unfold storeElement
  rw [Task.get_bind, Heap.setElement?_eq]
  cases component : w.registry.component? array.cls with
  | none => exact .notArray component
  | some c =>
    cases accepted : w.registry.accepts c value with
    | false =>
      simp only [accepted]
      exact .mismatch component accepted
    | true =>
      simp only [accepted]
      by_cases inRange : index < (w.heap.elements array).length
      · rw [if_pos inRange]
        exact .stored component accepted inRange
      · rw [if_neg inRange]
        exact .outOfRange (Nat.le_of_not_lt inRange)

end Invoke

/-- The arrays of a world, and what writing an element does to them. -/
structure World.ArraysTyped (w : World) : Prop where
  typed : ∀ {o elements}, o ∈ w.heap.objects → o.contents = .elements elements →
    ∃ t c, w.registry.get? o.cls = some t ∧ t.kind = .array c ∧
      w.registry.arrays.lookup c = some o.cls ∧ ∀ v ∈ elements, w.registry.accepts c v = true
  /-- A store is refused for one of three reasons. -/
  refused_iff : ∀ {array index value}, w.heap.Holds array →
    ((∃ e, Invoke.storeElement array index value w = .error e w) ↔
      w.heap.isArray array = false ∨
      (∃ c, w.registry.component? array.cls = some c ∧ w.registry.accepts c value = false) ∨
      (w.heap.elements array).length ≤ index)
  /-- A store that is refused changes nothing. -/
  refused : ∀ {array index value e w'}, Invoke.storeElement array index value w = .error e w' →
    w' = w
  /-- A store changes the one element. -/
  stored : ∀ {array index value w'}, Invoke.storeElement array index value w = .ok () w' →
    index < (w.heap.elements array).length ∧
      w'.heap.elements array = (w.heap.elements array).set index value ∧
      ∀ other, other.address ≠ array.address → w'.heap.elements other = w.heap.elements other

theorem World.Sound.array_class {o : Object} {elements : List Value} (sound : w.Sound)
    (member : o ∈ w.heap.objects) (contents : o.contents = .elements elements) :
    ∃ t c, w.registry.get? o.cls = some t ∧ t.kind = .array c ∧
      w.registry.arrays.lookup c = some o.cls ∧ ∀ v ∈ elements, w.registry.accepts c v = true := by
  have typed := sound.objects o member
  simp only [Object.Typed, contents] at typed
  obtain ⟨c, component, all⟩ := typed
  obtain ⟨t, found, array⟩ := Option.bind_eq_some_iff.mp component
  have kind := TypeInfo.component?_eq.mp array
  exact ⟨t, c, found, kind, sound.registry.coherent.arrays.mpr ⟨t, found, kind⟩,
    fun v listed => (all v listed).2⟩

/-- An object is an array exactly if its class is an array type. -/
theorem World.Sound.isArray_iff (sound : w.Sound) (held : w.heap.Holds array) :
    w.heap.isArray array = true ↔ ∃ c, w.registry.component? array.cls = some c := by
  constructor
  · intro isArray
    obtain ⟨c, component, _⟩ := sound.array held isArray
    exact ⟨c, component⟩
  · rintro ⟨c, component⟩
    exact sound.isArray_of_component held component

/-- At every moment each array is of its class's component type, and stays so under any store. -/
theorem arrays_typed (moment : Moment w) : w.ArraysTyped := by
  have sound := moment.sound
  constructor
  case typed => exact fun member contents => sound.array_class member contents
  case refused_iff =>
    intro array index value held
    have isArray := sound.isArray_iff held
    have outcome := Invoke.storeElement_outcome w array index value
    generalize Invoke.storeElement array index value w = result at outcome
    cases outcome with
    | stored component accepted inRange =>
      have held : w.heap.isArray array = true := isArray.mpr ⟨_, component⟩
      simp [held, component, accepted, inRange]
    | notArray component =>
      have notArray : w.heap.isArray array = false := by
        simp [← Bool.not_eq_true, isArray, component]
      simp [notArray]
    | mismatch component refused => simp [component, refused]
    | outOfRange outside => simp [outside]
  case refused =>
    intro array index value e w' failed
    have outcome := Invoke.storeElement_outcome w array index value
    rw [failed] at outcome
    cases outcome <;> rfl
  case stored =>
    intro array index value w' success
    have outcome := Invoke.storeElement_outcome w array index value
    rw [success] at outcome
    cases outcome with
    | stored component accepted inRange =>
      exact ⟨inRange, Heap.elements_write_self (Heap.isSome_of_elements inRange),
        fun other different => Heap.elements_write_other different⟩

/-- An array of texts with one element. -/
def rowWorld : World :=
  (Action.newArray .string [.string "a"]).apply (.initial .default .always)

theorem reachable_rowWorld : Reachable rowWorld := by
  refine .step (.initial _ _) (.newArray _ _) ?_
  intro v member
  rw [List.mem_singleton.mp member]
  trivial

/-- The array takes no number, and nothing behind its end. -/
theorem arrays_rowWorld :
    Moment rowWorld ∧ rowWorld.ArraysTyped ∧ rowWorld.heap.elements ⟨0, ⟨20⟩⟩ = [.string "a"] ∧
      (∃ e, Invoke.storeElement ⟨0, ⟨20⟩⟩ 0 (.int 1) rowWorld = .error e rowWorld) ∧
      (∃ e, Invoke.storeElement ⟨0, ⟨20⟩⟩ 1 (.string "b") rowWorld = .error e rowWorld) := by
  have moment := moment_of_reachable reachable_rowWorld
  have typed := arrays_typed moment
  have held : rowWorld.heap.Holds ⟨0, ⟨20⟩⟩ := ⟨_, rfl, rfl⟩
  refine ⟨moment, typed, rfl, (typed.refused_iff held).mpr ?_, (typed.refused_iff held).mpr ?_⟩
  · exact Or.inr (Or.inl ⟨.string, by decide +kernel, by decide +kernel⟩)
  · exact Or.inr (Or.inr (by decide +kernel))

end Interop
