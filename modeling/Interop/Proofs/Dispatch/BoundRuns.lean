import Interop.Proofs.Dispatch.Attachment

/-!
Runs in which a dispatcher comes with its object. The bridge makes a dispatcher for each instance
with overrides, before the arguments of the constructor are looked at, and attaches it when the
object is made. From then on code runs, which may make other such instances, so a dispatcher is
attached while those that were made before it are in use. At every moment of such a run no
dispatcher is attached twice.
-/
namespace Interop

open Interop.Task (Stays)
open World (AttachesNew KeepsAttached)

variable {w w' : World} {run : Runner}

/-- Running code attaches only dispatchers that it makes. -/
abbrev Runner.Attaches (run : Runner) : Prop := run.Stays AttachesNew

/-- If the world is reached by attaching new dispatchers, so is the other one. -/
def World.StaysNew (start w w' : World) : Prop := start.AttachesNew w → start.AttachesNew w'

instance (start : World) : IsPreorder World start.StaysNew where
  refl _ reached := reached
  trans _ _ _ first second reached := second (first reached)

theorem World.AttachesNew.staysNew {start : World} (attaches : w.AttachesNew w') :
    start.StaysNew w w' :=
  fun reached => reached.trans attaches

theorem World.KeepsAttached.staysNew {start : World} (keeps : w.KeepsAttached w') :
    start.StaysNew w w' :=
  keeps.attachesNew.staysNew

/-- A new dispatcher, and the object that it is attached to. -/
theorem World.attachesNew_bound {dispatcher : Dispatcher} {object : Object}
    (keeps : World.KeepsAttached { w with dispatchers := w.dispatchers ++ [dispatcher] } w')
    (carries : object.handler = some (.overrides ⟨w.dispatchers.length⟩)) :
    w.AttachesNew { w' with heap := (w'.heap.alloc object).2 } := by
  have made : w'.dispatchers.length = w.dispatchers.length + 1 := by
    rw [keeps.made, List.length_append, List.length_singleton]
  refine ⟨by rw [made]; exact Nat.le_succ _, [⟨w.dispatchers.length⟩], ?_, by simp, ?_⟩
  · rw [Heap.attached_alloc, keeps.attached, carries]
    rfl
  · intro d isNew
    rw [List.mem_singleton.mp isNew, made]
    exact ⟨Nat.le_refl _, Nat.lt_succ_self _⟩

namespace ClassHandle

/-- The dispatcher is made first, and marshalling attaches nothing until the object is made. -/
theorem staysNew_construct (runs : run.Attaches) (handle : ClassHandle) (args : List ScriptValue)
    (dispatcher : Dispatcher) :
    (handle.construct run args (some (.overrides ⟨w.dispatchers.length⟩))).Stays w.StaysNew
      { w with dispatchers := w.dispatchers ++ [dispatcher] } := by
  rw [construct_eq]
  have prepared := KeepsAttached.pieces.stays_prepareNew
    (w := { w with dispatchers := w.dispatchers ++ [dispatcher] }) handle args
  refine prepared.bind_of KeepsAttached.staysNew ?_
  intro p w₁ keeps
  refine .get (Stays.mapError ?_ _)
  exact Invoke.stays_construct (runs.mono AttachesNew.staysNew)
    (fun _ _ => KeepsAttached.staysNew ⟨rfl, rfl⟩) p.1 p.2
    fun cls _ => World.attachesNew_bound keeps rfl

theorem attaches_constructBound (runs : run.Attaches) (handle : ClassHandle)
    (overrides : Overrides) (args : List ScriptValue) :
    (handle.constructBound run overrides args).Stays AttachesNew w := by
  refine (AttachesNew.pieces.stays_emit _).bind fun _ w₁ _ => .get ?_
  have made : w₁.AttachesNew
      { w₁ with dispatchers := w₁.dispatchers ++ [Dispatcher.mk overrides none] } :=
    ⟨by simp, [], (List.append_nil _).symm, .nil, List.forall_mem_nil _⟩
  suffices kept : Stays w₁.StaysNew _ w₁ from kept (refl_of AttachesNew w₁)
  refine .set (fun _ => made) ?_
  refine (staysNew_construct runs handle args _).bind fun object w₂ _ => ?_
  refine AttachesNew.staysNew (KeepsAttached.attachesNew ?_)
  refine Stays.bind (R := KeepsAttached) (KeepsAttached.pieces.wraps object w₂) fun id w₃ _ => ?_
  exact (Stays.modify ⟨rfl, List.length_modify _ _ _⟩).bind fun _ _ _ => .pure _

end ClassHandle

theorem World.AttachesNew.steady : Steady AttachesNew :=
  AttachesNew.pieces.steady
    (fun receiver proxy _ => (World.keepsAttached_takeSuperCall receiver proxy).attachesNew)
    fun runs handle overrides args _ => handle.attaches_constructBound runs overrides args

/-- Native code writes fields, not dispatchers. -/
theorem Eval.attaches_writes : Writes (fun _ => True) AttachesNew (fun _ _ => True) :=
  fun _ _ written => ⟨trivial, KeepsAttached.attachesNew ⟨Heap.attached_setField written, rfl⟩⟩

theorem Eval.attaches_engine (depth : Nat) : (engine depth).Attaches :=
  AttachesNew.steady.stays_engine attaches_writes depth

namespace Action

/-- The host gives no dispatcher to an object by itself. -/
def Bound : Action → Prop
  | construct _ _ handler => handler.bind Handler.dispatcher? = none
  | _ => True

theorem attachesNew_apply {action : Action} (bound : action.Bound) :
    w.AttachesNew (action.apply w) := by
  have run : Eval.run.Attaches := Eval.attaches_engine Eval.maxDepth
  have steady := AttachesNew.steady
  cases action with
  | construct c args handler => exact steady.stays_construct run c args bound
  | invoke m receiver args => exact steady.stays_dispatch run true m receiver args
  | newInstance handle args => exact steady.stays_newInstance run handle args
  | newInstanceWithOverrides handle overrides args =>
    exact steady.stays_newInstanceWithOverrides run handle overrides args
  | call proxy site => exact steady.stays_call run proxy site
  | _ => exact AttachesNew.pieces.of_plainAction trivial

end Action

namespace Move

/-- No dispatcher is given to an object by itself, and what code calls gives none either. -/
def Bound : Move → Prop
  | act action => action.Bound
  | native run _ _ => run.Attaches
  | script run _ _ => run.Attaches
  | allocate _ _ handler => handler.bind Handler.dispatcher? = none
  | _ => True

theorem attachesNew_apply {move : Move} (bound : move.Bound) : w.AttachesNew (move.apply w) := by
  have run : Eval.run.Attaches := Eval.attaches_engine Eval.maxDepth
  have steady := AttachesNew.steady
  cases move with
  | act action => exact Action.attachesNew_apply bound
  | native run frame code =>
    exact steady.stays_code bound frame code fun _ => Eval.attaches_writes
  | script run frame code => exact steady.stays_script bound frame code
  | takeSuperCall proxy receiver =>
    exact KeepsAttached.attachesNew
      (World.keepsAttached_takeSuperCall (ε := BridgeError) receiver proxy)
  | addDispatcher overrides =>
    exact ⟨by simp [apply], [], (List.append_nil _).symm, .nil, List.forall_mem_nil _⟩
  | allocate c args handler =>
    exact steady.stays_construct (Eval.attaches_engine 0) c args bound
  | invokeForced m receiver args => exact steady.stays_dispatch run false m receiver args
  | invokeDirect m receiver args => exact Steady.stays_invokeDirect run m receiver args
  | invokeSuper m receiver args => exact steady.stays_invokeSuper run m receiver args
  | setField f receiver value =>
    exact KeepsAttached.attachesNew (World.keepsAttached_setField f receiver value)
  | _ => exact AttachesNew.pieces.of_plain trivial nofun

end Move

/-- The worlds of a run, at any moment of it, in which dispatchers come with their objects. -/
inductive BoundRun : World → Prop where
  | initial (config : Config) (gate : Gate) : BoundRun (.initial config gate)
  | step {w : World} (before : BoundRun w) (move : Move) (allowed : move.Allowed w)
      (bound : move.Bound) : BoundRun (move.apply w)
  -- The making of an instance with overrides. Without room for a body the engine stops where the
  -- constructor would be entered, and the moves of its code follow from there.
  | enter {w : World} (before : BoundRun w) (handle : ClassHandle) (overrides : Overrides)
      (args : List ScriptValue) :
      BoundRun (stateAfter (handle.constructBound (Eval.engine 0) overrides args w))

namespace BoundRun

theorem act (before : BoundRun w) (action : Action) (allowed : action.Allowed w)
    (bound : action.Bound) : BoundRun (action.apply w) :=
  before.step (.act action) allowed bound

theorem sound (run : BoundRun w) : w.Sound := by
  induction run with
  | initial config gate => exact sound_initial config gate
  | step _ move allowed _ ih => exact (Move.grows_apply ih allowed).1
  | enter _ handle overrides args ih =>
    exact (handle.safe_constructBound (Eval.safe_engine 0) ih overrides args).state.1

/-- At every moment no dispatcher is attached twice, and all that are attached have been made. -/
theorem attached_once (run : BoundRun w) :
    w.heap.attached.Nodup ∧
      ∀ dispatcher ∈ w.heap.attached, dispatcher.index < w.dispatchers.length := by
  obtain ⟨config, gate, attaches⟩ : ∃ config gate, (World.initial config gate).AttachesNew w := by
    induction run with
    | initial config gate => exact ⟨config, gate, refl_of World.AttachesNew _⟩
    | step _ move _ bound ih =>
      obtain ⟨config, gate, before⟩ := ih
      exact ⟨config, gate, before.trans (Move.attachesNew_apply bound)⟩
    | enter _ handle overrides args ih =>
      obtain ⟨config, gate, before⟩ := ih
      exact ⟨config, gate, before.trans
        (handle.attaches_constructBound (Eval.attaches_engine 0) overrides args)⟩
  obtain ⟨_, new, attached, once, since⟩ := attaches
  have same : w.heap.attached = new := attached
  rw [same]
  exact ⟨once, fun dispatcher isNew => (since dispatcher isNew).2⟩

/-- So a dispatcher tells its object. -/
theorem eq_of_dispatcher {a b : ObjectRef} {dispatcher : DispatcherId} (run : BoundRun w)
    (heldA : w.heap.Holds a) (heldB : w.heap.Holds b)
    (first : w.heap.handler? a = some (.overrides dispatcher))
    (second : w.heap.handler? b = some (.overrides dispatcher)) : a = b :=
  heldA.eq_of_address heldB (Heap.address_of_attached run.attached_once.1 first second)

end BoundRun

end Interop
