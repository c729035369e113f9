import Interop.Proofs.World.Steady

/-!
Which dispatchers objects carry. A dispatcher is attached when its object is made, and the object
keeps it. Where dispatchers are made together with their objects, what a task attaches are new
dispatchers, each to one object; this goes for whole constructions too, although a constructor may
run code that constructs others before it ends.
-/
namespace Interop

namespace Heap

variable {heap heap' : Heap} {ref : ObjectRef}

/-- The dispatchers that objects carry, in the order of the objects. -/
def attached (heap : Heap) : List DispatcherId :=
  heap.objects.filterMap fun object => object.handler.bind Handler.dispatcher?

theorem attached_alloc (heap : Heap) (object : Object) :
    (heap.alloc object).2.attached =
      heap.attached ++ (object.handler.bind Handler.dispatcher?).toList := by
  unfold attached alloc
  rw [List.filterMap_append]
  cases attaches : object.handler.bind Handler.dispatcher? <;> simp [attaches]

theorem attached_write (heap : Heap) (ref : ObjectRef) (contents : Contents) :
    (heap.write ref contents).attached = heap.attached := by
  unfold attached write
  generalize heap.objects = objects
  generalize ref.address = address
  induction objects generalizing address with
  | nil => simp
  | cons object rest ih =>
    cases address with
    | zero => simp [List.filterMap_cons]
    | succ n => simp only [List.modify_succ_cons, List.filterMap_cons, ih n]

theorem attached_setField {name : String} {value : Value}
    (written : heap.setField? ref name value = some heap') : heap'.attached = heap.attached := by
  unfold setField? at written
  split at written
  · split at written
    · cases written
      exact attached_write heap ref _
    · cases written
  · cases written

theorem attached_setElement {index : Nat} {value : Value}
    (written : heap.setElement? ref index value = some heap') : heap'.attached = heap.attached := by
  unfold setElement? at written
  split at written
  · split at written
    · cases written
      exact attached_write heap ref _
    · cases written
  · cases written

/-- Two references to one place are one reference. -/
theorem Holds.eq_of_address {other : ObjectRef} (held : heap.Holds ref) (held' : heap.Holds other)
    (address : ref.address = other.address) : ref = other := by
  obtain ⟨object, found, cls⟩ := held
  obtain ⟨object', found', cls'⟩ := held'
  have same : object = object' := by
    unfold get? at found found'
    rw [address, found'] at found
    exact (Option.some.inj found).symm
  have ofClass : ref.cls = other.cls := by rw [← cls, same, cls']
  cases ref
  cases other
  cases address
  cases ofClass
  rfl

/-- The objects that carry one dispatcher are one object where no dispatcher is attached twice. -/
theorem address_of_attached {other : ObjectRef} {dispatcher : DispatcherId}
    (once : heap.attached.Nodup) (first : heap.handler? ref = some (.overrides dispatcher))
    (second : heap.handler? other = some (.overrides dispatcher)) :
    ref.address = other.address := by
  obtain ⟨object, found, handler⟩ := Option.bind_eq_some_iff.mp first
  obtain ⟨object', found', handler'⟩ := Option.bind_eq_some_iff.mp second
  obtain ⟨inRange, rfl⟩ := List.getElem?_eq_some_iff.mp found
  obtain ⟨inRange', rfl⟩ := List.getElem?_eq_some_iff.mp found'
  rw [attached, List.Nodup, List.pairwise_filterMap, List.pairwise_iff_getElem] at once
  rcases Nat.lt_trichotomy ref.address other.address with before | same | after
  · exact absurd rfl (once _ _ inRange inRange' before dispatcher (by simp [handler]; rfl)
      dispatcher (by simp [handler']; rfl))
  · exact same
  · exact absurd rfl (once _ _ inRange' inRange after dispatcher (by simp [handler']; rfl)
      dispatcher (by simp [handler]; rfl))

end Heap

variable {w w' w'' : World}

namespace World

/-- No dispatcher is made or attached. -/
structure KeepsAttached (w w' : World) : Prop where
  attached : w'.heap.attached = w.heap.attached
  made : w'.dispatchers.length = w.dispatchers.length

instance : IsPreorder World KeepsAttached where
  refl _ := ⟨rfl, rfl⟩
  trans _ _ _ first second :=
    ⟨second.attached.trans first.attached, second.made.trans first.made⟩

/-- All dispatchers that are attached have been made since, and none is attached twice. -/
structure AttachesNew (w w' : World) : Prop where
  made : w.dispatchers.length ≤ w'.dispatchers.length
  attached : ∃ new, w'.heap.attached = w.heap.attached ++ new ∧ new.Nodup ∧
    ∀ dispatcher ∈ new, w.dispatchers.length ≤ dispatcher.index ∧
      dispatcher.index < w'.dispatchers.length

theorem KeepsAttached.attachesNew (keeps : w.KeepsAttached w') : w.AttachesNew w' where
  made := keeps.made.ge
  attached := ⟨[], by rw [keeps.attached, List.append_nil], .nil, List.forall_mem_nil _⟩

/-- What is attached later was made later. -/
theorem AttachesNew.trans (first : w.AttachesNew w') (second : w'.AttachesNew w'') :
    w.AttachesNew w'' := by
  obtain ⟨made, new, attached, once, since⟩ := first
  obtain ⟨made', new', attached', once', since'⟩ := second
  refine ⟨made.trans made', new ++ new', ?_, ?_, ?_⟩
  · rw [attached', attached, List.append_assoc]
  · refine List.nodup_append'.mpr ⟨once, once', fun dispatcher early late => ?_⟩
    exact absurd (since dispatcher early).2 (Nat.not_lt.mpr (since' dispatcher late).1)
  · intro dispatcher isNew
    rcases List.mem_append.mp isNew with early | late
    · exact ⟨(since dispatcher early).1, (since dispatcher early).2.trans_le made'⟩
    · exact ⟨made.trans (since' dispatcher late).1, (since' dispatcher late).2⟩

instance : IsPreorder World AttachesNew where
  refl _ := KeepsAttached.attachesNew ⟨rfl, rfl⟩
  trans _ _ _ := AttachesNew.trans

end World

namespace World

/-- An object without a dispatcher may be made at any time. -/
theorem keepsAttached_alloc {object : Object}
    (none : object.handler.bind Handler.dispatcher? = none) :
    w.KeepsAttached { w with heap := (w.heap.alloc object).2 } :=
  ⟨by rw [Heap.attached_alloc, none, Option.toList_none, List.append_nil], rfl⟩

theorem arraysStay_keepsAttached : Marshal.ArraysStay KeepsAttached :=
  Marshal.arraysStay_of (fun _ _ => Task.stays_onRegistry ⟨rfl, rfl⟩)
    fun _ _ _ => keepsAttached_alloc rfl

theorem keepsAttached_setField (f : Field) (receiver : Option ObjectRef) (value : Value) :
    (Invoke.setField f receiver value).Stays KeepsAttached w :=
  Invoke.stays_setField f receiver value ⟨rfl, rfl⟩
    fun written => ⟨Heap.attached_setField written, rfl⟩

/-- What enters no body attaches nothing; overrides may be replaced, but the dispatcher stays where
it is. -/
theorem KeepsAttached.pieces : Pieces KeepsAttached where
  aside _ heap _ dispatchers := ⟨by rw [heap], by rw [dispatchers]⟩
  lookup _ _ := ⟨rfl, rfl⟩
  arrayOf _ _ := ⟨rfl, rfl⟩
  defineWith _ _ := ⟨rfl, rfl⟩
  generateSubclass _ _ := ⟨rfl, rfl⟩
  generateImplementation _ _ := ⟨rfl, rfl⟩
  newObject _ _ _ plain := keepsAttached_alloc plain
  newElements _ _ _ := keepsAttached_alloc rfl
  setElement written := ⟨Heap.attached_setElement written, rfl⟩
  setField proxy name value := proxy.stays_setField arraysStay_keepsAttached name value
    fun f receiver value _ => keepsAttached_setField f receiver value
  wrap _ _ := ⟨rfl, rfl⟩
  superView _ _ := ⟨rfl, rfl⟩
  retain _ _ := ⟨rfl, rfl⟩
  drop _ _ := ⟨rfl, rfl⟩
  forget _ _ := ⟨rfl, rfl⟩
  purge _ := ⟨rfl, rfl⟩
  setView _ _ := ⟨rfl, rfl⟩
  setOverrides _ _ _ := ⟨rfl, List.length_modify _ _ _⟩

theorem AttachesNew.pieces : Pieces AttachesNew :=
  KeepsAttached.pieces.mono KeepsAttached.attachesNew

theorem keepsAttached_takeSuperCall {ε : Type} (receiver : Option ObjectRef) (proxy : Proxy) :
    (proxy.takeSuperCall receiver : Task ε Bool).Stays KeepsAttached w := by
  cases proxy with
  | cls id => exact .pure _
  | «instance» id =>
    cases receiver with
    | none => exact .pure _
    | some object => exact .get (.set ⟨rfl, rfl⟩ (.pure _))

end World

end Interop
