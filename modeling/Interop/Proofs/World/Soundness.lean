import Interop.Proofs.Handle.Uses
import Interop.Proofs.Overload.Justified
import Interop.Proofs.Registry.Completion
import Interop.Proofs.Registry.GeneratedTypes
import Interop.Proofs.Registry.SearchOrder
import Interop.World

/-!
The invariant of a world. References lead to objects of the class they name, the elements of an
array are of its component type, an instance has the fields of its class and supertypes, and a
handle shows its object under a type that the object belongs to.

A world only grows: types, objects and handles stay, objects keep their class and handles their
target, and whatever happens to handles is a matter of uses. What holds of a value because of what
is there holds from then on.
-/
namespace Interop

mutual

/-- The values that stand in a literal. -/
def Literal.values : Literal → List Value
  | .value v => [v]
  | .array _ elements => Literal.valuesOfAll elements
  | _ => []

def Literal.valuesOfAll : List Literal → List Value
  | [] => []
  | first :: rest => first.values ++ Literal.valuesOfAll rest

end

mutual

/-- The values that stand in native code. -/
def Code.values : Code → List Value
  | .literal l => l.values
  | .setField _ value => value.values
  | .sequence items => Code.valuesOfAll items
  | .callThis _ args => Code.valuesOfAll args
  | .callOn target _ args => target.values ++ Code.valuesOfAll args
  | .add left right => left.values ++ right.values
  | .choose condition yes no => condition.values ++ yes.values ++ no.values
  | .length array => array.values
  | .element array _ => array.values
  | .storeElement array _ value => array.values ++ value.values
  | .newArray _ elements => Code.valuesOfAll elements
  | .newObject _ args => Code.valuesOfAll args
  | .log value => value.values
  | _ => []

def Code.valuesOfAll : List Code → List Value
  | [] => []
  | first :: rest => first.values ++ Code.valuesOfAll rest

end

def Body.values : Body → List Value
  | .code c => c.values
  | _ => []

def Method.values (m : Method) : List Value := m.body.toList.flatMap Body.values

def Constructor.values (c : Constructor) : List Value := c.body.toList.flatMap Code.values

/-- The values that stand in the members of a type. -/
def TypeInfo.values (t : TypeInfo) : List Value :=
  t.methods.flatMap Method.values ++ t.constructors.flatMap Constructor.values ++
    t.fields.map Field.default

def TypeDraft.values (draft : TypeDraft) : List Value :=
  draft.methods.flatMap (fun m => m.body.toList.flatMap Body.values) ++
    draft.constructors.flatMap (fun c => c.body.toList.flatMap Code.values) ++
    draft.fields.flatMap (fun f => f.default.toList)

/-- The reference leads to an object of the class that it names. -/
def Heap.Holds (heap : Heap) (ref : ObjectRef) : Prop :=
  ∃ o, heap.get? ref = some o ∧ o.cls = ref.cls

/-- If the value is a reference, it leads to an object. -/
def Heap.Knows (heap : Heap) : Value → Prop
  | .object ref => heap.Holds ref
  | _ => True

/-- What an object is like, as the registry describes its class. -/
def Object.Typed (r : Registry) (heap : Heap) (o : Object) : Prop :=
  match o.contents with
  | .elements elements =>
    ∃ c, r.component? o.cls = some c ∧ ∀ v ∈ elements, heap.Knows v ∧ r.accepts c v = true
  | .fields fields =>
    (∃ t, r.get? o.cls = some t ∧ t.isClass = true) ∧ o.cls.unboxedKind? = none ∧
      (∀ t ∈ r.searchOrder o.cls, ∀ f ∈ t.fields, f.isStatic = false →
        (fields.lookup f.name).isSome) ∧
      ∀ entry ∈ fields, heap.Knows entry.2

structure World.Sound (w : World) : Prop where
  registry : w.registry.Settled
  code : ∀ {i t}, w.registry.get? i = some t → ∀ v ∈ t.values, w.heap.Knows v
  objects : ∀ o ∈ w.heap.objects, o.Typed w.registry w.heap
  statics : ∀ entry ∈ w.heap.statics, w.heap.Knows entry.2
  native_variables : ∀ entry ∈ w.nativeVariables, w.heap.Knows entry.2
  handles : ∀ h ∈ w.handles.handles, w.heap.Holds h.target ∧
    w.registry.isAssignable h.target.cls h.view = true
  memo : w.memo.Justified w.registry

structure World.Grows (w w' : World) : Prop where
  registry : w.registry.Extends w'.registry
  heap : ∀ {ref}, w.heap.Holds ref → w'.heap.Holds ref
  handles : ∀ {id h}, w.handle? id = some h → ∃ h', w'.handle? id = some h' ∧ h'.target = h.target
  uses : w.handles.Used w'.handles

variable {w w' w'' : World} {v : Value}

theorem World.Grows.refl (w : World) : w.Grows w :=
  ⟨Registry.Extends.refl _, fun held => held, fun {_ h} found => ⟨h, found, rfl⟩, .refl _⟩

theorem World.Grows.trans (first : w.Grows w') (second : w'.Grows w'') : w.Grows w'' where
  registry := first.registry.trans second.registry
  heap := fun held => second.heap (first.heap held)
  handles := by
    intro id h found
    obtain ⟨h', found', same⟩ := first.handles found
    obtain ⟨h'', found'', same'⟩ := second.handles found'
    exact ⟨h'', found'', same'.trans same⟩
  uses := first.uses.trans second.uses

theorem Heap.Knows.mono {heap heap' : Heap} (known : heap.Knows v)
    (holds : ∀ {ref}, heap.Holds ref → heap'.Holds ref) : heap'.Knows v := by
  cases v with
  | object ref => exact holds known
  | _ => trivial

theorem World.Grows.knows (grows : w.Grows w') (known : w.heap.Knows v) : w'.heap.Knows v :=
  known.mono grows.heap

section Types

variable {r r' : Registry}

theorem Registry.isAssignable_mono {i j : TypeId} (settled : r.Settled) (settled' : r'.Settled)
    (larger : r.Extends r') (assignable : r.isAssignable i j = true) : r'.isAssignable i j = true :=
  (isAssignable_iff settled').mpr (((isAssignable_iff settled).mp assignable).mono larger)

theorem Registry.component?_mono {i c : TypeId} (larger : r.Extends r')
    (component : r.component? i = some c) :
    r'.component? i = some c := by
  obtain ⟨t, found, array⟩ := Option.bind_eq_some_iff.mp component
  rw [component?, larger found]
  exact array

theorem Overload.typeDistance_mono {p a : TypeId} (settled : r.Settled) (settled' : r'.Settled)
    (larger : r.Extends r') (distance : (typeDistance r p a).isSome) :
    (typeDistance r' p a).isSome := by
  unfold typeDistance at distance ⊢
  split at distance
  · cases distance
  · next t found =>
    rw [larger found]
    cases kind : t.primitiveKind? with
    | some k =>
      simp only [kind] at distance ⊢
      exact distance
    | none =>
      simp only [kind, Option.isSome_map] at distance ⊢
      exact Registry.isAssignable_mono settled settled' larger distance

/-- The supertypes of a type that was there are the same as before. -/
theorem Registry.searchOrder_restrict {i : TypeId} {t u : TypeInfo} (settled : r.Settled)
    (settled' : r'.Settled)
    (larger : r.Extends r') (found : r.get? i = some u) (listed : t ∈ r'.searchOrder i) :
    t ∈ r.searchOrder i := by
  obtain ⟨j, there, n, path⟩ := (mem_searchOrder settled').mp listed
  obtain ⟨before, v, live⟩ := path.restrict settled.coherent larger found
  have same := larger live
  rw [there] at same
  cases same
  exact (mem_searchOrder settled).mpr ⟨j, live, n, before⟩

theorem Object.Typed.withTypes {heap : Heap} {o : Object} (typed : o.Typed r heap)
    (settled : r.Settled) (settled' : r'.Settled) (larger : r.Extends r') : o.Typed r' heap := by
  unfold Object.Typed at typed ⊢
  split
  · next elements contents =>
    simp only [contents] at typed
    obtain ⟨c, component, all⟩ := typed
    refine ⟨c, Registry.component?_mono larger component, ?_⟩
    intro v member
    exact ⟨(all v member).1, Registry.accepts_mono settled settled' larger (all v member).2⟩
  · next fields contents =>
    simp only [contents] at typed
    obtain ⟨⟨t, found, isClass⟩, notBoxed, covered, known⟩ := typed
    refine ⟨⟨t, larger found, isClass⟩, notBoxed, ?_, known⟩
    intro u listed
    exact covered u (Registry.searchOrder_restrict settled settled' larger found listed)

end Types

theorem Object.Typed.withObjects {r : Registry} {heap heap' : Heap} {o : Object}
    (typed : o.Typed r heap)
    (holds : ∀ {ref}, heap.Holds ref → heap'.Holds ref) : o.Typed r heap' := by
  unfold Object.Typed at typed ⊢
  split
  · next elements contents =>
    simp only [contents] at typed
    obtain ⟨c, component, all⟩ := typed
    exact ⟨c, component, fun v member => ⟨(all v member).1.mono holds, (all v member).2⟩⟩
  · next fields contents =>
    simp only [contents] at typed
    obtain ⟨cls, notBoxed, covered, known⟩ := typed
    exact ⟨cls, notBoxed, covered, fun entry member => (known entry member).mono holds⟩

end Interop
