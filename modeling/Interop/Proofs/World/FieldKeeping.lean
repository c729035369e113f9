import Interop.Proofs.World.FieldSlots
import Interop.Proofs.World.Steady

/-!
What keeps slots typed: all that writes no field by itself. A write through a handle is checked
against the declaration that the handle's view shows, which is a declaration of the object's own
hierarchy. So typed slots are kept by whole runs, as long as the native code in them leaves writing
to handles.
-/
namespace Interop

open Interop.Task (Stays)

variable {w : World}

/-- If slots were typed, the other world continues this one. -/
def World.Carries (w w' : World) : Prop := w.SlotsTyped → w.Continues w'

instance : IsPreorder World World.Carries where
  refl _ typed := .refl typed
  trans _ _ _ first second typed := (first typed).trans (second (first typed).typed)

namespace World.Carries

theorem arrayOf (w : World) (component : TypeId) :
    Carries w { w with registry := stateAfter (Registry.arrayOf component w.registry) } :=
  fun typed => typed.withArrays ((Registry.AddsArrays.refl typed.registry).arrayOf component)

theorem arrays : Marshal.ArraysStay Carries :=
  Marshal.arraysStay_of (fun component w => Task.stays_onRegistry (arrayOf w component))
    fun _ _ _ typed => typed.alloc nofun

/-- A write is typed if the field is one that the class of the receiver has. -/
theorem writeField {f : Field} {receiver : Option ObjectRef} (value : Value)
    (declared : ∀ {ref}, receiver = some ref → f.isStatic = false → w.Refers ref ∧
      ∃ t ∈ w.registry.searchOrder ref.cls, f ∈ t.fields) :
    (Invoke.setField f receiver value).Stays Carries w := by
  refine .get (.guard fun _ => .guard fun accepted => ?_)
  split
  · exact .ofExcept fun _ _ => .store fun typed => typed.unaffected rfl rfl rfl
  · next onInstance =>
    split
    · exact .throw _
    · next ref =>
      split
      · next written =>
        obtain ⟨refers, t, listed, member⟩ := declared rfl (by simpa using onInstance)
        have admits : w.registry.Admits f.type value := Or.inl (by simpa using accepted)
        exact .store fun typed => typed.setField refers
          ⟨t, listed, f, member, rfl, by simpa using onInstance, admits⟩ written
      · exact .throw _

/-- The field is looked up on the view of the handle, so the object's class has it, and conversion
changes neither. -/
theorem setField (proxy : Proxy) (name : String) (value : ScriptValue) :
    (proxy.setField name value).Stays Carries w := by
  intro typed
  refine Stays.get (R := Carries) (.ofExcept fun f access => ?_) typed
  refine (arrays.unwrap value).bind fun unwrapped w₁ first => ?_
  refine (arrays.convert unwrapped f.type).bind fun converted w₂ second => ?_
  have later := (first typed).trans (second (first typed).typed)
  refine Stays.mapError (writeField converted ?_) _
  intro ref receiver _
  cases proxy with
  | cls id => cases receiver
  | «instance» id =>
    obtain ⟨h, live, rfl⟩ := Option.map_eq_some_iff.mp receiver
    obtain ⟨h', live', target⟩ := later.targets live
    have found : w.registry.field? h.view name = some f := by
      simpa [Proxy.memberType, live] using Proxy.accessibleField_ok access
    have assignable := typed.views h (List.mem_of_getElem? live)
    obtain ⟨_, _, t, listed, declared⟩ := field?_inherited typed.registry assignable found
    exact ⟨Or.inr ⟨id, h', live', target⟩, t,
      Registry.searchOrder_mono typed.registry later.typed.registry later.registry listed, declared⟩

theorem defineWith (w : World) (resolver : TypeId → Registry.Resolver) :
    Carries w { w with registry := stateAfter (w.registry.defineWith resolver).1 } := by
  intro typed
  have completed := typed.registry.defineWith resolver
  exact typed.withRegistry completed.settled completed.grows
    (typed.defaults.defineWith typed.registry resolver)

theorem generateSubclass (w : World) (base : TypeId) :
    Carries w { w with registry := stateAfter (w.registry.generateSubclass base).1 } := by
  intro typed
  obtain ⟨settled, larger⟩ :=
    (Registry.generateSubclass_outcome w.registry base).settled typed.registry
  exact typed.withRegistry settled larger (typed.defaults.generateSubclass typed.registry base)

theorem generateImplementation (w : World) (interface : TypeId) :
    Carries w
      { w with registry := stateAfter (w.registry.generateImplementation interface).1 } := by
  intro typed
  obtain ⟨settled, larger⟩ :=
    (Registry.generateImplementation_outcome w.registry interface).settled typed.registry
  exact typed.withRegistry settled larger
    (typed.defaults.generateImplementation typed.registry interface)

/-- A new instance starts with the defaults of its fields. -/
theorem newObject (w : World) (cls : TypeId) (handler : Option Handler) :
    Carries w { w with
      heap := (w.heap.alloc ⟨cls, .fields (w.registry.instanceDefaults cls), handler⟩).2 } := by
  intro typed
  refine typed.alloc ?_
  rintro fields ⟨⟩ entry member
  exact typed.declares_default member

theorem setView {id : HandleId} {h : Handle} {view : TypeId} (found : w.handle? id = some h)
    (assignable : w.registry.isAssignable h.target.cls view = true) :
    Carries w { w with handles := w.handles.setView id view } := by
  intro typed
  refine typed.withHandles (HandleTable.evolves_update id (fun _ => rfl) ?_)
  intro h' there _
  cases found.symm.trans there
  exact assignable

theorem pieces : Pieces Carries where
  aside registry heap handles _ typed :=
    typed.unaffected registry (congrArg Heap.objects heap) (congrArg HandleTable.handles handles)
  lookup _ name typed := typed.withArrays (.lookup typed.registry name)
  arrayOf := arrayOf
  defineWith := defineWith
  generateSubclass := generateSubclass
  generateImplementation := generateImplementation
  newObject w cls handler _ := newObject w cls handler
  newElements _ _ _ typed := typed.alloc nofun
  setElement written typed := typed.setElement written
  setField proxy name value := setField proxy name value
  wrap w object typed := typed.withHandles (HandleTable.evolves_wrap
    (Task.assignable_visibleClass typed.registry object.cls) (w.heap.dispatcher? object))
  superView _ id typed := typed.withHandles (HandleTable.evolves_superView typed.views id)
  retain _ id typed := typed.withHandles (HandleTable.evolves_retain id)
  drop _ id typed := typed.withHandles (HandleTable.evolves_drop id)
  forget _ id typed := typed.withHandles (HandleTable.evolves_forget id)
  purge _ typed := typed.unaffected rfl rfl rfl
  setView := setView
  setOverrides _ _ _ typed := typed.unaffected rfl rfl rfl

theorem takeSuperCall {ε : Type} (receiver : Option ObjectRef) (proxy : Proxy) :
    (proxy.takeSuperCall receiver : Task ε Bool).Stays Carries w := by
  cases proxy with
  | cls id => exact .pure _
  | «instance» id =>
    cases receiver with
    | none => exact .pure _
    | some object =>
      refine .get (.set (fun typed => ?_) (.pure _))
      exact typed.withHandles (HandleTable.evolves_takeSuperCall id)

theorem steady : Steady Carries := by
  refine pieces.steady (fun receiver proxy _ => takeSuperCall receiver proxy) ?_
  intro run runs handle overrides args w
  refine ClassHandle.stays_constructBound runs (fun _ _ => pieces.aside rfl rfl rfl rfl)
    pieces.wraps (fun handle args _ => pieces.stays_prepareNew handle args) newObject ?_ ?_
    handle overrides args
  · exact fun _ _ typed => typed.unaffected rfl rfl rfl
  · exact fun _ _ _ typed => typed.unaffected rfl rfl rfl

end World.Carries

end Interop
