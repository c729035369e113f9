import Interop.Proofs.Marshal.Frame
import Interop.Proofs.World.Steady

/-!
What takes super calls. A run is taken apart into the calls on an instance that get to their method,
and what is done between them without entering a body. Each of the calls takes the super call of its
own handle, if that waits, and nothing else takes any. All that a host or a script can do is such a
run, however deep bodies call each other in it.
-/
namespace Interop

open HandleTable (Use Waiting)
open Interop.Task (Stays)

variable {w w' w'' : World} {calls later : List HandleId}

namespace World

/-- No super call is taken. -/
def KeepsSuperCalls (w w' : World) : Prop :=
  ∃ uses, w'.handles = w.handles.used uses ∧ ∀ id, Use.take id ∉ uses

theorem KeepsSuperCalls.of_handles (same : w'.handles = w.handles) : w.KeepsSuperCalls w' :=
  ⟨[], same, fun _ => List.not_mem_nil⟩

theorem KeepsSuperCalls.of_use (use : Use) (used : w'.handles = use.apply w.handles)
    (notTaken : ∀ id, use ≠ .take id) : w.KeepsSuperCalls w' := by
  refine ⟨[use], used, fun id member => ?_⟩
  exact notTaken id (List.mem_singleton.mp member).symm

theorem KeepsSuperCalls.trans (first : w.KeepsSuperCalls w') (second : w'.KeepsSuperCalls w'') :
    w.KeepsSuperCalls w'' := by
  obtain ⟨uses, used, untaken⟩ := first
  obtain ⟨uses', used', untaken'⟩ := second
  refine ⟨uses' ++ uses, by rw [used', used, HandleTable.used_append], fun id member => ?_⟩
  exact (List.mem_append.mp member).elim (untaken' id) (untaken id)

instance : IsPreorder World KeepsSuperCalls where
  refl _ := .of_handles rfl
  trans _ _ _ := KeepsSuperCalls.trans

namespace KeepsSuperCalls

theorem setField (f : Field) (receiver : Option ObjectRef) (value : Value) :
    (Invoke.setField f receiver value).Stays KeepsSuperCalls w :=
  Invoke.stays_setField f receiver value (.of_handles rfl) fun _ => .of_handles rfl

theorem arrays : Marshal.ArraysStay KeepsSuperCalls :=
  Marshal.arraysStay_of (fun _ _ => Task.stays_onRegistry (.of_handles rfl))
    fun _ _ _ => .of_handles rfl

theorem pieces : Pieces KeepsSuperCalls where
  aside _ _ handles _ := .of_handles handles
  lookup _ _ := .of_handles rfl
  arrayOf _ _ := .of_handles rfl
  defineWith _ _ := .of_handles rfl
  generateSubclass _ _ := .of_handles rfl
  generateImplementation _ _ := .of_handles rfl
  newObject _ _ _ _ := .of_handles rfl
  newElements _ _ _ := .of_handles rfl
  setElement _ := .of_handles rfl
  setField proxy name value :=
    proxy.stays_setField arrays name value fun f receiver value _ => setField f receiver value
  wrap w object := .of_use (.operate (.wrap object (w.registry.visibleClass object.cls)
    (w.heap.dispatcher? object))) rfl nofun
  superView _ id := .of_use (.operate (.superView id)) rfl nofun
  retain _ id := .of_use (.operate (.clone id)) rfl nofun
  drop _ id := .of_use (.operate (.drop id)) rfl nofun
  forget _ id := .of_use (.operate (.release id)) rfl nofun
  purge _ := .of_use .purge rfl nofun
  setView {_ id _ view} _ _ := .of_use (.setView id view) rfl nofun
  setOverrides _ _ _ := .of_handles rfl

/-- Neither do the moves by which a host has a hand in objects. -/
theorem of_plain {move : Move} (plain : move.Plain) : w.KeepsSuperCalls (move.apply w) := by
  refine pieces.of_plain plain fun raw => ?_
  cases move with
  | addDispatcher overrides => exact .of_handles rfl
  | allocate c args handler =>
    have stops : (Eval.engine 0).Stays KeepsSuperCalls :=
      ⟨fun _ _ _ => .throw _, fun _ _ _ _ => .throw _⟩
    exact Invoke.stays_construct stops (fun _ _ => .of_handles rfl) c args
      fun _ => .of_handles rfl
  | setField f receiver value => exact setField f receiver value
  | _ => cases raw

end KeepsSuperCalls

end World

/-- What a run does without entering a body, at one time. -/
inductive Part (w : World) : World → Prop where
  | move (move : Move) (plain : move.Plain) : Part w (move.apply w)
  -- Native code writes a field of its receiver.
  | write {ref : ObjectRef} {name : String} {value : Value} {heap : Heap}
      (written : w.heap.setField? ref name value = some heap) : Part w { w with heap := heap }
  -- An object is made, gets its handle, and its dispatcher learns the handle.
  | allocate (object : Object) : Part w { w with heap := (w.heap.alloc object).2 }
  | wrap (object : ObjectRef) :
      Part w (stateAfter ((Task.wrapObject object : Task BridgeError HandleId) w))
  | bind (index : Nat) (id : HandleId) : Part w { w with
      dispatchers := w.dispatchers.modify index (fun d => { d with handle := some id }) }

theorem Part.keepsSuperCalls (part : Part w w') : w.KeepsSuperCalls w' := by
  cases part with
  | move move plain => exact .of_plain plain
  | write written => exact .of_handles rfl
  | allocate object => exact .of_handles rfl
  | wrap object => exact World.KeepsSuperCalls.pieces.wraps object w
  | bind index id => exact .of_handles rfl

/-- The course of a run, with the handles of the calls on an instance that have got to their method
in it, the latest first. The method is entered with the super call taken. -/
inductive Course (w : World) : List HandleId → World → Prop where
  | now : Course w [] w
  | part {calls : List HandleId} {w' w'' : World} (before : Course w calls w')
      (part : Part w' w'') : Course w calls w''
  | call {calls : List HandleId} {w' w'' : World} {id : HandleId} {site : CallSite}
      {p : Proxy.Prepared} (before : Course w calls w')
      (prepared : (Proxy.instance id).prepare site w' = .ok p w'')
      (onInstance : site.onInstance = true) :
      Course w (id :: calls)
        (stateAfter (((Proxy.instance id).takeSuperCall p.receiver : Task BridgeError Bool) w''))

namespace Course

theorem trans (first : Course w calls w') (second : Course w' later w'') :
    Course w (later ++ calls) w'' := by
  induction second with
  | now => exact first
  | part _ part ih => exact .part ih part
  | call _ prepared onInstance ih => exact .call ih prepared onInstance

/-- Of the handles that were there, those and only those have been asked for their super call that a
call has gone through. -/
theorem uses (course : Course w calls w') :
    ∃ uses, w'.handles = w.handles.used uses ∧
      ∀ {id h}, w.handle? id = some h → (.take id ∈ uses ↔ id ∈ calls) := by
  induction course with
  | now => exact ⟨[], rfl, fun _ => by simp⟩
  | part _ part ih =>
    obtain ⟨uses, used, taken⟩ := ih
    obtain ⟨more, used', untaken⟩ := part.keepsSuperCalls
    refine ⟨more ++ uses, by rw [used', used, HandleTable.used_append], ?_⟩
    intro id h live
    rw [List.mem_append, taken live, or_iff_right (untaken id)]
  | @call _ w₁ w₂ id site p _ prepared onInstance ih =>
    obtain ⟨uses, used, taken⟩ := ih
    have same : w₂.handles = w₁.handles := (Proxy.keeps_prepare _ site).ok prepared
    have receiver : p.receiver = (w₁.handle? id).map Handle.target := by
      simpa [onInstance, Proxy.receiver?] using Proxy.prepare_receiver prepared
    cases there : w₁.handle? id with
    | none =>
      -- A handle that was there still is, so the call went through another.
      rw [there] at receiver
      refine ⟨uses, by rw [receiver]; exact same.trans used, ?_⟩
      intro other h live
      have different : other ≠ id := by
        rintro rfl
        obtain ⟨h', found, _⟩ := HandleTable.get?_used live uses
        rw [← used] at found
        cases there.symm.trans found
      rw [taken live, List.mem_cons, or_iff_right different]
    | some h =>
      rw [there] at receiver
      refine ⟨.take id :: uses, ?_, ?_⟩
      · rw [receiver, HandleTable.used, ← used, ← same]
        rfl
      · intro other h live
        rw [List.mem_cons, List.mem_cons, taken live, Use.take.injEq]

/-- In the course of a run the super call of a handle waits until a call on an instance has gone
through the handle to its method. -/
theorem waiting_iff {history : List Use} (course : Course w calls w')
    (made : w.handles = .used .empty history) :
    ∃ uses, w'.handles = .used .empty (uses ++ history) ∧
      ∀ id h, w.handle? id = some h →
        (Waiting (uses ++ history) id ↔ Waiting history id ∧ id ∉ calls) := by
  obtain ⟨uses, used, taken⟩ := course.uses
  refine ⟨uses, by rw [used, made, HandleTable.used_append], ?_⟩
  intro id h live
  have there : (HandleTable.used .empty history).get? id = some h := by rw [← made]; exact live
  rw [HandleTable.waiting_append_iff there, taken live]

end Course

/-- The other world is reached in the course of a run. -/
def World.Proceeds (w w' : World) : Prop := ∃ calls, Course w calls w'

instance : IsPreorder World World.Proceeds where
  refl _ := ⟨[], .now⟩
  trans _ _ _ first second := by
    obtain ⟨calls, course⟩ := first
    obtain ⟨later, course'⟩ := second
    exact ⟨later ++ calls, course.trans course'⟩

namespace World.Proceeds

theorem part (part : Part w w') : w.Proceeds w' := ⟨[], .part .now part⟩

theorem move (move : Move) (plain : move.Plain) : w.Proceeds (move.apply w) :=
  part (.move move plain)

theorem act (action : Action) (plain : action.Plain) : w.Proceeds (action.apply w) :=
  move (.act action) plain

theorem enter {proxy : Proxy} {site : CallSite} {p : Proxy.Prepared}
    (prepared : proxy.prepare site w = .ok p w') :
    w.Proceeds (stateAfter ((proxy.takeSuperCall p.receiver : Task BridgeError Bool) w')) := by
  have reached : w.Proceeds w' := by
    have moved : w.Proceeds ((Move.prepareCall proxy site).apply w) := move _ trivial
    rwa [Move.apply, prepared] at moved
  cases proxy with
  | cls id => exact reached
  | «instance» id =>
    cases onInstance : site.onInstance with
    | true => exact ⟨[id], .call .now prepared onInstance⟩
    | false =>
      have receiver : p.receiver = none := by
        simpa [onInstance] using Proxy.prepare_receiver prepared
      rw [receiver]
      exact reached

theorem steady : Steady Proceeds where
  emit _ event := move (.note event) trivial
  logEntry _ entry := move (.log entry) trivial
  addFunction _ body := act (.addFunction body) trivial
  lookup _ name := act (.lookup name) trivial
  arrayOf component := act (.arrayOf component) trivial
  arrays component elements _ := act (.newArray component elements) trivial
  storeElement array index value := move (.storeElement array index value) trivial
  wraps object _ := part (.wrap object)
  superView id := act (.superView id) trivial
  openScope _ := move .openScope trivial
  endScope _ outer result := move (.closeScope outer result) trivial
  hold _ value := move (.hold value) trivial
  setVariable _ name value := act (.setVariable name value) trivial
  setField proxy name value := act (.setField proxy name value) trivial
  setOverrides id overrides := act (.setOverrides id overrides) trivial
  prepareCall proxy site := move (.prepareCall proxy site) trivial
  enter := enter
  prepareNew handle args := move (.prepareNew handle args) trivial
  newObject _ _ _ _ := part (.allocate _)
  constructBound runs handle overrides args _ :=
    ClassHandle.stays_constructBound runs (fun _ event => move (.note event) trivial)
      (fun object _ => part (.wrap object))
      (fun handle args _ => move (.prepareNew handle args) trivial)
      (fun _ _ _ => part (.allocate _))
      (fun _ overrides => move (.addDispatcher overrides) trivial)
      (fun _ index id => part (.bind index id)) handle overrides args

theorem writes : Eval.Writes (fun _ => True) Proceeds (fun _ _ => True) :=
  fun _ _ written => ⟨trivial, part (.write written)⟩

end World.Proceeds

open World (Proceeds)

theorem Eval.proceeds_engine (depth : Nat) : (engine depth).Stays Proceeds :=
  Proceeds.steady.stays_engine Proceeds.writes depth

/-- A move that does not stop in the middle of a call. What code calls goes on in the course of the
run. -/
def Move.Whole : Move → Prop
  | native run _ _ => run.Stays Proceeds
  | script run _ _ => run.Stays Proceeds
  | takeSuperCall _ _ => False
  | _ => True

theorem Action.proceeds_apply (action : Action) : w.Proceeds (action.apply w) := by
  have runs : Eval.run.Stays Proceeds := Eval.proceeds_engine Eval.maxDepth
  have steady := Proceeds.steady
  cases action with
  | construct c args handler =>
    exact Invoke.stays_construct runs steady.emit c args fun _ => Proceeds.part (.allocate _)
  | invoke m receiver args => exact steady.stays_dispatch runs true m receiver args
  | newInstance handle args => exact steady.stays_newInstance runs handle args
  | newInstanceWithOverrides handle overrides args =>
    exact steady.stays_newInstanceWithOverrides runs handle overrides args
  | call proxy site => exact steady.stays_call runs proxy site
  | _ => exact Proceeds.act _ trivial

/-- All that a host or a script does is a run of this kind. -/
theorem Move.proceeds_apply {move : Move} (whole : move.Whole) : w.Proceeds (move.apply w) := by
  have runs : Eval.run.Stays Proceeds := Eval.proceeds_engine Eval.maxDepth
  have steady := Proceeds.steady
  cases move with
  | act action => exact action.proceeds_apply
  | native run frame code => exact steady.stays_code whole frame code fun _ => Proceeds.writes
  | script run frame code => exact steady.stays_script whole frame code
  | takeSuperCall proxy receiver => cases whole
  | invokeForced m receiver args => exact steady.stays_dispatch runs false m receiver args
  | invokeDirect m receiver args => exact Steady.stays_invokeDirect runs m receiver args
  | invokeSuper m receiver args => exact steady.stays_invokeSuper runs m receiver args
  | _ => exact Proceeds.move _ trivial

end Interop
