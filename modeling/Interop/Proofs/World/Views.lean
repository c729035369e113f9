import Interop.Proofs.Marshal.Frame
import Interop.Proofs.World.Guards

/-!
Views. A handle may come from wrapping an object, from a new instance, as the receiver of an
override or as a super view, and may have been cast since. At every moment the type that it shows
its object under is there, and the object's class is assignable to it. A cast to a type that does
not meet this condition changes nothing, and what happens to types later does not undo it.
-/
namespace Interop

variable {w w' : World} {id other : HandleId} {h : Handle} {type : TypeId}

/-- The object of a handle is there, and so is the type that the handle shows it under, which the
object's class is assignable to. -/
structure World.Presents (w : World) (h : Handle) : Prop where
  target : w.heap.Holds h.target
  live : ∃ t, w.registry.get? h.view = some t
  assignable : w.registry.isAssignable h.target.cls h.view = true

/-- What an object's class is assignable to is there. -/
theorem World.Sound.live_of_assignable {ref : ObjectRef} (sound : w.Sound)
    (held : w.heap.Holds ref) (assignable : w.registry.isAssignable ref.cls type = true) :
    ∃ t, w.registry.get? type = some t := by
  rw [Registry.isAssignable_iff sound.registry] at assignable
  by_cases same : ref.cls = type
  · subst same
    rcases sound.cls held with ⟨c, component⟩ | ⟨⟨t, found, _⟩, _⟩
    · obtain ⟨t, found, _⟩ := Option.bind_eq_some_iff.mp component
      exact ⟨t, found⟩
    · exact ⟨t, found⟩
  · obtain ⟨_, t, _, _, found, _⟩ := assignable.reference sound.registry.coherent same
    exact ⟨t, found⟩

theorem World.Sound.presents (sound : w.Sound) (listed : h ∈ w.handles.handles) :
    w.Presents h := by
  obtain ⟨held, assignable⟩ := sound.handles h listed
  exact ⟨held, sound.live_of_assignable held assignable, assignable⟩

namespace HandleId

/-- The world after a cast. -/
def castWorld (id : HandleId) (type : TypeId) (w : World) : World :=
  { w with
    handles := w.handles.setView id type
    events := w.events ++ [castEvent (w.registry.typeName type)] }

theorem cast_of_assignable (found : w.handle? id = some h)
    (assignable : w.registry.isAssignable h.target.cls type = true) :
    id.cast type w = .ok id (id.castWorld type w) := by
  unfold cast
  rw [Task.get_bind]
  simp only [found, assignable]
  rfl

theorem cast_of_not_assignable (found : w.handle? id = some h)
    (refused : w.registry.isAssignable h.target.cls type = false) :
    id.cast type w =
      .error (.castFailure (w.registry.typeName h.view) (w.registry.typeName type)) w := by
  have name : w.instanceName id = w.registry.typeName h.view := by simp [World.instanceName, found]
  unfold cast
  rw [Task.get_bind]
  simp only [found, refused, name]
  rfl

theorem handle?_castWorld (id other : HandleId) (type : TypeId) (w : World) :
    (id.castWorld type w).handle? other =
      if other = id then (w.handle? other).map (fun h => { h with view := type })
      else w.handle? other :=
  HandleTable.get?_update w.handles id other _

theorem cast_of_absent (absent : w.handle? id = none) : id.cast type w = .ok id w := by
  unfold cast
  rw [Task.get_bind]
  simp only [absent]
  rfl

/-- A cast that succeeds gives the handle its view and leaves the other handles. -/
theorem cast_ok {result : HandleId} (success : id.cast type w = .ok result w') :
    result = id ∧ ∀ other, w'.handle? other =
      if other = id then (w.handle? id).map (fun h => { h with view := type })
      else w.handle? other := by
  cases found : w.handle? id with
  | none =>
    rw [cast_of_absent found] at success
    cases success
    refine ⟨rfl, fun other => ?_⟩
    split
    · next same => rw [same, found]; rfl
    · rfl
  | some h =>
    cases assignable : w.registry.isAssignable h.target.cls type with
    | false =>
      rw [cast_of_not_assignable found assignable] at success
      cases success
    | true =>
      rw [cast_of_assignable found assignable] at success
      cases success
      refine ⟨rfl, fun other => ?_⟩
      rw [handle?_castWorld]
      split
      · next same => rw [same, found]
      · rfl

/-- A cast that fails changes nothing. -/
theorem cast_error {e : BridgeError} (failure : id.cast type w = .error e w') : w' = w := by
  cases found : w.handle? id with
  | none =>
    rw [cast_of_absent found] at failure
    cases failure
  | some h =>
    cases assignable : w.registry.isAssignable h.target.cls type with
    | true =>
      rw [cast_of_assignable found assignable] at failure
      cases failure
    | false =>
      rw [cast_of_not_assignable found assignable] at failure
      cases failure
      rfl

end HandleId

namespace Bridge

open Interop.Task

theorem keeps_checkRegistered : checkRegistered.KeepsHandles :=
  .of_stays fun _ => stays_checkRegistered

theorem keeps_requireType (name : String) : (requireType name).KeepsHandles :=
  .of_stays fun _ => stays_requireType rfl

variable {name : String} {value : ScriptValue}

theorem eq_of_checkRegistered {result : Unit} (checked : checkRegistered w = .ok result w') :
    w' = w := by
  unfold checkRegistered at checked
  rw [Task.get_bind] at checked
  split at checked <;> cases checked
  rfl

/-- A type that is required by name is what the name stands for. -/
theorem lookup_of_requireType {type : TypeId} (required : requireType name w = .ok type w') :
    (Registry.lookup name w.registry).1 = some type := by
  unfold requireType at required
  split at required
  · cases required
  · obtain ⟨found, w₁, looked, answer⟩ := Task.of_bind_ok required
    have found_eq : (Registry.lookup name w.registry).1 = found := by cases looked; rfl
    cases found with
    | none => cases answer
    | some type =>
      cases answer
      exact found_eq

/-- A cast by name that succeeds gives the handle the type that the name stands for as its view. -/
theorem handle?_of_cast_ok (success : Bridge.cast name value w = .ok id w') :
    value.instance? = some id ∧
      ∃ type, (Registry.lookup name w.registry).1 = some type ∧ ∀ other, w'.handle? other =
        if other = id then (w.handle? id).map (fun h => { h with view := type })
        else w.handle? other := by
  unfold Bridge.cast at success
  obtain ⟨_, w₁, checked, rest⟩ := Task.of_bind_ok success
  cases eq_of_checkRegistered checked
  cases present : value.instance? with
  | none =>
    simp only [present] at rest
    cases rest
  | some source =>
    simp only [present] at rest
    obtain ⟨type, w₂, required, changed⟩ := Task.of_bind_ok rest
    have kept : w₂.handle? = w.handle? := by
      unfold World.handle?
      rw [(keeps_requireType name).ok required]
    obtain ⟨rfl, views⟩ := HandleId.cast_ok changed
    refine ⟨rfl, type, lookup_of_requireType required, ?_⟩
    rwa [kept] at views

/-- A cast by name that fails leaves all handles as they are. -/
theorem handles_of_cast_error {e : BridgeError} (failure : Bridge.cast name value w = .error e w') :
    w'.handles = w.handles := by
  unfold Bridge.cast at failure
  rcases Task.of_bind_error failure with early | ⟨_, w₁, checked, failure⟩
  · exact keeps_checkRegistered.error early
  · have first := keeps_checkRegistered.ok checked
    cases present : value.instance? with
    | none =>
      simp only [present] at failure
      cases failure
      exact first
    | some id =>
      simp only [present] at failure
      rcases Task.of_bind_error failure with early | ⟨type, w₂, required, failure⟩
      · exact ((keeps_requireType name).error early).trans first
      · rw [HandleId.cast_error failure]
        exact ((keeps_requireType name).ok required).trans first

end Bridge

/-- What happens to types does not undo a view. -/
theorem World.Presents.withTypes {r : Registry} (presents : w.Presents h)
    (settled : w.registry.Settled) (settled' : r.Settled) (larger : w.registry.Extends r) :
    World.Presents { w with registry := r } h where
  target := presents.target
  live := by
    obtain ⟨t, found⟩ := presents.live
    exact ⟨t, larger found⟩
  assignable := Registry.isAssignable_mono settled settled' larger presents.assignable

/-- At every moment each handle shows its object under a type that is there and that the object's
class is assignable to. A cast of a handle gives it the new view if this then holds; otherwise it
fails and leaves all as it is. A cast by name that fails leaves all handles as they are. No sequence
of registry operations undoes a view. -/
theorem views_hold (moment : Moment w) :
    (∀ h ∈ w.handles.handles, w.Presents h) ∧
    (∀ id h type, w.handle? id = some h →
      if w.registry.isAssignable h.target.cls type = true then
        ∃ w', id.cast type w = .ok id w' ∧
          (∀ other, w'.handle? other =
            if other = id then some { h with view := type } else w.handle? other) ∧
          ∀ h' ∈ w'.handles.handles, w'.Presents h'
      else
        id.cast type w =
          .error (.castFailure (w.registry.typeName h.view) (w.registry.typeName type)) w) ∧
    (∀ name value,
      match Bridge.cast name value w with
      | .ok id w' =>
        value.instance? = some id ∧
        ∃ type, (Registry.lookup name w.registry).1 = some type ∧
          (∀ other, w'.handle? other =
            if other = id then (w.handle? id).map (fun h => { h with view := type })
            else w.handle? other) ∧
          ∀ h' ∈ w'.handles.handles, w'.Presents h'
      | .error _ w' => w'.handles = w.handles) ∧
    ∀ operations : List Registry.Operation, ∀ h ∈ w.handles.handles,
      World.Presents
        { w with registry := operations.foldl Registry.Operation.apply w.registry } h := by
  have sound := moment.sound
  refine ⟨fun h => sound.presents, ?_, ?_, ?_⟩
  · intro id h type found
    split
    · next assignable =>
      have success := HandleId.cast_of_assignable found assignable
      refine ⟨_, success, ?_, ?_⟩
      · intro other
        rw [(HandleId.cast_ok success).2 other, found]
        rfl
      · have later := moment.later (.step .now (.castTo id type) trivial)
        rw [Move.apply, success] at later
        exact fun h' => later.sound.presents
    · next refused =>
      exact HandleId.cast_of_not_assignable found (Bool.eq_false_iff.mpr refused)
  · intro name value
    have later := moment.later (.step .now (.act (.cast name value)) trivial)
    split
    · next id w' success =>
      rw [Move.apply, Action.apply, success] at later
      obtain ⟨present, type, found, views⟩ := Bridge.handle?_of_cast_ok success
      exact ⟨present, type, found, views, fun h' => later.sound.presents⟩
    · next e w' failure => exact Bridge.handles_of_cast_error failure
  · intro operations h listed
    obtain ⟨settled, larger⟩ := sound.registry.foldl_apply operations
    exact (sound.presents listed).withTypes sound.registry settled larger

theorem views_tallyWorld :
    Moment tallyWorld ∧ (∀ h ∈ tallyWorld.handles.handles, tallyWorld.Presents h) ∧
      HandleId.cast ⟨0⟩ .string tallyWorld =
        .error (.castFailure "app.Tally" "core.String") tallyWorld ∧
      ∃ w', HandleId.cast ⟨0⟩ .object tallyWorld = .ok ⟨0⟩ w' ∧
        (w'.handle? ⟨0⟩).map Handle.view = some .object := by
  have moment := moment_of_reachable reachable_tallyWorld
  obtain ⟨presents, casts, _⟩ := views_hold moment
  have found : tallyWorld.handle? ⟨0⟩ = some ⟨⟨0, ⟨21⟩⟩, ⟨21⟩, none, false, 1⟩ := rfl
  have refused := casts ⟨0⟩ _ .string found
  rw [if_neg (by decide +kernel)] at refused
  have granted := casts ⟨0⟩ _ .object found
  rw [if_pos (by decide +kernel)] at granted
  obtain ⟨w', success, views, _⟩ := granted
  exact ⟨moment, presents, refused, w', success, by rw [views]; rfl⟩

end Interop
