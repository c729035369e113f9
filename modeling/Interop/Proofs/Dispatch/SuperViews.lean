import Interop.Proofs.Dispatch.Forwarding
import Interop.Proofs.Dispatch.SuperCalls

/-!
Super views. The first call with a receiver through a super view that gets as far as its method
passes by the overrides, whatever has happened since the view was taken. The super call is taken
before the method is entered, so neither the calls that its body makes nor later ones through the
view profit from it: they go where any virtual call goes at their moment. A call that fails earlier,
or that has no receiver, takes nothing.
-/
namespace Interop

open HandleTable (Use Waiting)

variable {w w' : World} {id : HandleId} {h : Handle} {site : CallSite} {run : Runner}
  {object : ObjectRef} {m : Method} {args : List Value} {history : List Use}

namespace Invoke

/-- The native implementation for the object's class; a static method is its own. -/
def runNative (run : Runner) (w : World) (m : Method) (object : ObjectRef) (args : List Value) :
    Task NativeError Value :=
  if m.isStatic then runMethod run m none args
  else runMethod run (w.registry.nativeMethod object.cls m) (some object) args

/-- A call past the overrides. -/
def runPast (run : Runner) (w : World) (m : Method) (object : ObjectRef) (args : List Value) :
    Task NativeError Value := do
  Task.emit (superEvent m)
  withAbstractDefault m (runNative run w m object args)

/-- A call that goes where virtual calls go at this moment; a static method has no target. -/
def runRouted (run : Runner) (w : World) (m : Method) (object : ObjectRef) (args : List Value) :
    Task NativeError Value :=
  if m.isStatic then runMethod run m none args
  else (w.target object m args).run run m object args

theorem dispatch_of_static {throughHandler : Bool} {receiver : Option ObjectRef}
    (isStatic : m.isStatic = true) (guarded : Guarded w.registry m receiver args) :
    dispatch run throughHandler m receiver args w = runMethod run m none args w := by
  rw [dispatch_of_guarded run throughHandler guarded]
  unfold deliver
  rw [if_pos isStatic]

theorem invokeForced_eq_native (guarded : Guarded w.registry m (some object) args) :
    invokeForced run m (some object) args w = runNative run w m object args w := by
  unfold runNative
  cases isStatic : m.isStatic with
  | true =>
    rw [if_pos rfl]
    exact dispatch_of_static isStatic guarded
  | false =>
    rw [if_neg Bool.false_ne_true, invokeForced_of_guarded isStatic guarded, invokeDirect_eq]

theorem invokeSuper_eq_past (guarded : Guarded w.registry m (some object) args) :
    invokeSuper run m (some object) args w = runPast run w m object args w := by
  apply Task.bind_congr_after
  intro _ w₁ noted
  have same : w₁.registry = w.registry := by
    cases noted
    rfl
  rw [← same] at guarded
  have native : runNative run w m object args = runNative run w₁ m object args := by
    simp only [runNative, same]
  rw [native]
  exact withAbstractDefault_congr (invokeForced_eq_native guarded) m

theorem invoke_eq_routed (guarded : Guarded w.registry m (some object) args) :
    invoke run m (some object) args w = runRouted run w m object args w := by
  unfold runRouted
  cases isStatic : m.isStatic with
  | true =>
    rw [if_pos rfl]
    exact dispatch_of_static isStatic guarded
  | false =>
    rw [if_neg Bool.false_ne_true]
    exact invoke_eq_target run isStatic guarded

/-- What native code finds by name takes the arguments and belongs to the object. -/
theorem guarded_of_virtualMethod {name : String} (sound : w.Sound)
    (found : w.registry.virtualMethod? object.cls name args = some m) :
    m.isStatic = false ∧ Guarded w.registry m (some object) args := by
  have fits := List.find?_some found
  simp only [Bool.and_eq_true, Bool.not_eq_true', beq_iff_eq, List.all_eq_true] at fits
  obtain ⟨⟨⟨_, onInstance⟩, length⟩, accepted⟩ := fits
  have each : List.Forall₂ (fun param arg => w.registry.accepts param arg = true) m.params args :=
    List.forall₂_iff_zip.mpr ⟨length, fun {param arg} paired => accepted (param, arg) paired⟩
  obtain ⟨n, path⟩ :=
    Registry.declaring_of_mem_allMethods sound.registry (List.mem_of_find?_eq_some found)
  have below := (Registry.isAssignable_iff sound.registry).mpr (Registry.below_of_path path)
  exact ⟨onInstance, Marshal.checkArguments_ok _ each, fun _ => ⟨object, rfl, below⟩⟩

/-- A virtual call of native code is routed as any other, whatever super calls wait. -/
theorem invokeVirtual_eq_target (sound : w.Sound) (run : Runner) (object : ObjectRef)
    (name : String) (args : List Value) :
    invokeVirtual run object name args w =
      match w.registry.virtualMethod? object.cls name args with
      | some m => (w.target object m args).run run m object args w
      | none => .error (.noSuchMember (w.registry.typeName object.cls ++ "." ++ name)) w := by
  unfold invokeVirtual
  rw [Task.get_bind]
  cases found : w.registry.virtualMethod? object.cls name args with
  | none => rfl
  | some m =>
    obtain ⟨onInstance, guarded⟩ := guarded_of_virtualMethod sound found
    exact invoke_eq_target run onInstance guarded

end Invoke

namespace Proxy

variable {proxy : Proxy} {p : Prepared}

theorem takeSuperCall_of_receiver {ε : Type} (found : w.handle? id = some h) (object : ObjectRef) :
    (takeSuperCall (some object) (.instance id) : Task ε Bool) w =
      .ok (h.superCall && h.dispatcher.isSome)
        { w with handles := (Use.take id).apply w.handles } := by
  have superCall : (w.handles.takeSuperCall id).1 = h.superCall := by
    have there : w.handles.get? id = some h := found
    simp [HandleTable.takeSuperCall, there]
  have dispatcher : (w.handle? id).bind Handle.dispatcher = h.dispatcher := by rw [found]; rfl
  rw [← superCall, ← dispatcher]
  rfl

/-- The world in which a method runs whose call has taken the super call. -/
def enteredPast (history : List Use) (id : HandleId) (w : World) : World :=
  { w with handles := .used .empty (.take id :: history) }

/-- What becomes of a call through a handle, after the uses of handles that a history tells of. -/
structure CallsThrough (run : Runner) (history : List Use) (w : World) (id : HandleId) (h : Handle)
    (site : CallSite) : Prop where
  refused : ∀ {e w'}, (Proxy.instance id).prepare site w = .error e w' →
    (Proxy.instance id).call run site w = .error e w' ∧ w'.handles = w.handles
  unbound : ∀ {p w'}, (Proxy.instance id).prepare site w = .ok p w' → site.onInstance = false →
    p.method.isStatic = true ∧ w'.handles = w.handles ∧
      (Proxy.instance id).call run site w =
        p.finish (Invoke.runMethod run p.method none p.args) w'
  bypass : ∀ {p w'}, (Proxy.instance id).prepare site w = .ok p w' → site.onInstance = true →
    Waiting history id →
    (Proxy.instance id).call run site w =
        p.finish (Invoke.runPast run w' p.method h.target p.args) (enteredPast history id w') ∧
      Later w (enteredPast history id w') ∧
      ∀ other, Waiting (.take id :: history) other ↔ Waiting history other ∧ other ≠ id
  routed : ∀ {p w'}, (Proxy.instance id).prepare site w = .ok p w' → site.onInstance = true →
    ¬Waiting history id →
    w'.handles = w.handles ∧ Later w w' ∧
      (Proxy.instance id).call run site w =
        p.finish (Invoke.runRouted run w' p.method h.target p.args) w'

section

variable (made : w.handles = .used .empty history) (live : w.handle? id = some h)
include made live

theorem superCall_iff_waiting : h.superCall = true ↔ Waiting history id := by
  have there : w.handles.get? id = some h := live
  rw [made] at there
  exact HandleTable.superCall_iff there

/-- The super call of a handle is taken if it waits, and otherwise nothing changes. -/
theorem takeSuperCall_of_waiting {ε : Type} (waiting : Waiting history id) (object : ObjectRef) :
    (takeSuperCall (some object) (.instance id) : Task ε Bool) w =
      .ok true (enteredPast history id w) := by
  have superCall := (superCall_iff_waiting made live).mpr waiting
  obtain ⟨h', found, _, overridden⟩ := waiting.pending
  rw [← made] at found
  cases found.symm.trans live
  rw [takeSuperCall_of_receiver live, superCall, overridden, made]
  rfl

theorem takeSuperCall_of_spent {ε : Type} (spent : ¬Waiting history id) (object : ObjectRef) :
    (takeSuperCall (some object) (.instance id) : Task ε Bool) w = .ok false w := by
  have superCall : h.superCall = false := by
    rw [← superCall_iff_waiting made live] at spent
    simpa using spent
  rw [takeSuperCall_of_receiver live, HandleTable.take_of_spent live superCall, superCall]
  rfl

end

theorem later_of_prepared (prepared : proxy.prepare site w = .ok p w') : Later w w' := by
  have later : Later w ((Move.prepareCall proxy site).apply w) := .step .now _ trivial
  rwa [Move.apply, prepared] at later

section

variable (sound : w.Sound) (live : w.handle? id = some h)
  (prepared : (Proxy.instance id).prepare site w = .ok p w')
include sound live prepared

theorem guarded_of_prepared : Guarded w'.registry p.method p.receiver p.args :=
  ((safe_prepare sound _ site).ok prepared).2.2 rfl live

/-- A static call takes no super call: it has no receiver. -/
theorem call_of_unbound (unbound : site.onInstance = false) (run : Runner) :
    p.method.isStatic = true ∧
      (Proxy.instance id).call run site w =
        p.finish (Invoke.runMethod run p.method none p.args) w' := by
  have receiver : p.receiver = none := by simpa [unbound] using prepare_receiver prepared
  have guarded := guarded_of_prepared sound live prepared
  have isStatic : p.method.isStatic = true := by
    by_contra onInstance
    obtain ⟨object, there, _⟩ := guarded.receiver (Bool.eq_false_iff.mpr onInstance)
    rw [receiver] at there
    cases there
  have untaken : (takeSuperCall p.receiver (.instance id) : Task NativeError Bool) w' =
      .ok false w' := by
    rw [receiver]
    rfl
  refine ⟨isStatic, ?_⟩
  rw [call_of_prepared prepared]
  apply Prepared.finish_congr
  rw [invokeChosen_of_taken untaken, if_neg Bool.false_ne_true]
  exact Invoke.dispatch_of_static isStatic guarded

/-- A call on an instance gets to its method with the handle as it was. -/
theorem bound_of_prepared (bound : site.onInstance = true) :
    p.receiver = some h.target ∧ Guarded w'.registry p.method (some h.target) p.args ∧
      w'.handle? id = some h := by
  have receiver : p.receiver = some h.target := by
    simpa [bound, receiver?, live] using prepare_receiver prepared
  have guarded := guarded_of_prepared sound live prepared
  rw [receiver] at guarded
  exact ⟨receiver, guarded, by rwa [World.handle?, (keeps_prepare _ site).ok prepared]⟩

variable (made : w.handles = .used .empty history) (bound : site.onInstance = true)
include made bound

theorem call_of_waiting (waiting : Waiting history id) (run : Runner) :
    (Proxy.instance id).call run site w =
        p.finish (Invoke.runPast run w' p.method h.target p.args) (enteredPast history id w') ∧
      Later w (enteredPast history id w') := by
  obtain ⟨receiver, guarded, live'⟩ := bound_of_prepared sound live prepared bound
  have made' : w'.handles = .used .empty history := ((keeps_prepare _ site).ok prepared).trans made
  constructor
  · rw [call_of_prepared prepared, receiver]
    apply Prepared.finish_congr
    rw [invokeChosen_of_taken (takeSuperCall_of_waiting made' live' waiting h.target), if_pos rfl]
    exact Invoke.invokeSuper_eq_past (w := enteredPast history id w') guarded
  · have later : Later w ((Move.takeSuperCall (.instance id) (some h.target)).apply w') :=
      .step (later_of_prepared prepared) _ trivial
    rwa [Move.apply, takeSuperCall_of_waiting made' live' waiting] at later

theorem call_of_spent (spent : ¬Waiting history id) (run : Runner) :
    (Proxy.instance id).call run site w =
      p.finish (Invoke.runRouted run w' p.method h.target p.args) w' := by
  obtain ⟨receiver, guarded, live'⟩ := bound_of_prepared sound live prepared bound
  have made' : w'.handles = .used .empty history := ((keeps_prepare _ site).ok prepared).trans made
  rw [call_of_prepared prepared, receiver]
  apply Prepared.finish_congr
  rw [invokeChosen_of_taken (takeSuperCall_of_spent made' live' spent h.target),
    if_neg Bool.false_ne_true]
  exact Invoke.invoke_eq_routed guarded

end

theorem callsThrough (sound : w.Sound) (made : w.handles = .used .empty history)
    (live : w.handle? id = some h) (run : Runner) (site : CallSite) :
    CallsThrough run history w id h site where
  refused := fun refused => ⟨call_of_refused refused, (keeps_prepare _ site).error refused⟩
  unbound := by
    intro p w' prepared unbound
    obtain ⟨isStatic, called⟩ := call_of_unbound sound live prepared unbound run
    exact ⟨isStatic, (keeps_prepare _ site).ok prepared, called⟩
  bypass := by
    intro p w' prepared bound waiting
    obtain ⟨called, later⟩ := call_of_waiting sound live prepared made bound waiting run
    exact ⟨called, later, fun other => HandleTable.waiting_take_iff⟩
  routed := by
    intro p w' prepared bound spent
    exact ⟨(keeps_prepare _ site).ok prepared, later_of_prepared prepared,
      call_of_spent sound live prepared made bound spent run⟩

end Proxy

/-- The next call on an instance that gets through the handle to its method, and is the first one
since, runs the native implementation for the object. -/
def FirstPasses (w : World) (view : HandleId) (object : ObjectRef) : Prop :=
  ∀ calls w', Course w calls w' → Later w w' → view ∉ calls →
    ∀ run site p w'', (Proxy.instance view).prepare site w' = .ok p w'' → site.onInstance = true →
      (Proxy.instance view).call run site w' =
        p.finish (Invoke.runPast run w'' p.method object p.args)
          { w'' with handles := (Use.take view).apply w''.handles }

theorem firstPasses_of_waiting (sound : w.Sound) (made : w.handles = .used .empty history)
    (live : w.handle? id = some h) (shows : h.target = object) (waiting : Waiting history id) :
    FirstPasses w id object := by
  intro calls w' course later notCalled run site p w'' prepared onInstance
  obtain ⟨uses, made', waits⟩ := course.waiting_iff made
  obtain ⟨sound', grows⟩ := later.grows sound
  obtain ⟨h', live', target⟩ := grows.handles live
  have waiting' := (waits id h live).mpr ⟨waiting, notCalled⟩
  have entered : w''.handles = .used .empty (uses ++ history) :=
    ((Proxy.keeps_prepare _ site).ok prepared).trans made'
  rw [entered, ← shows, ← target]
  exact (Proxy.call_of_waiting sound' live' prepared made' onInstance waiting' run).1

/-- A super view of a handle with overrides is a new handle of its object, and its super call
waits. -/
theorem waiting_of_superView {source : HandleId} {s : Handle} (sound : w.Sound)
    (made : w.handles = .used .empty history) (live : w.handle? source = some s)
    (overridden : s.dispatcher.isSome = true) :
    ∃ view w', (Task.superView source : Task BridgeError HandleId) w = .ok view w' ∧
      w'.handles = .used .empty (.operate (.superView source) :: history) ∧
      w.handle? view = none ∧ (w'.handle? view).map Handle.target = some s.target ∧
      Waiting (.operate (.superView source) :: history) view ∧ FirstPasses w' view s.target := by
  have there : (HandleTable.used .empty history).get? source = some s := by rw [← made]; exact live
  have new := HandleTable.superView_new there overridden
  rw [← made] at new
  let view := (w.handles.superView source).1
  let w' : World := { w with handles := (w.handles.superView source).2, held := view :: w.held }
  have used : w'.handles = .used .empty (.operate (.superView source) :: history) := by
    simp only [w', made]
    rfl
  have shown : w'.handle? view = some { s with superCall := true, references := 1 } := by
    simp only [w', view, new]
    exact HandleTable.get?_add_new w.handles _
  have waiting : Waiting (.operate (.superView source) :: history) view := by
    simp only [view, made]
    exact .made there overridden
  have taken : (Task.superView source : Task BridgeError HandleId) w = .ok view w' := rfl
  have sound' := ((Task.safe_superView sound source).ok taken).1
  refine ⟨view, w', taken, used, ?_, by rw [shown]; rfl, waiting, ?_⟩
  · simp only [view, new]
    exact List.getElem?_eq_none_iff.mpr (Nat.le_refl _)
  · exact firstPasses_of_waiting sound' used shown rfl waiting

/-- From a moment on the history of handles goes on, and the super call of each handle waits as long
as it has not been taken. -/
theorem waiting_of_later (sound : w.Sound) (made : w.handles = .used .empty history)
    (later : Later w w') :
    ∃ uses, w'.handles = .used .empty (uses ++ history) ∧
      ∀ id h, w.handle? id = some h →
        (Waiting (uses ++ history) id ↔ Waiting history id ∧ .take id ∉ uses) := by
  obtain ⟨uses, used⟩ := (later.grows sound).2.uses
  refine ⟨uses, ?_, ?_⟩
  · rw [used, made, HandleTable.used_append]
  · intro id h live
    have there : (HandleTable.used .empty history).get? id = some h := by rw [← made]; exact live
    exact HandleTable.waiting_append_iff there uses

/-- At every moment, after any history of handles: a call through a handle that does not get to its
method, or that is static, leaves all super calls waiting. The first other call through a super view
of a handle with overrides runs the native implementation, and takes the super call of this view and
no other before it is entered. Every call through a handle whose super call does not wait, and every
virtual call of native code, goes to what the method's target is at that moment.

Nothing else takes a super call. All that a host or a script does is the course of a run, and so is
what the engine does at any depth; in the course of a run a super call waits until a call on an
instance has gone through its handle to its method, and once it has been taken it never waits
again. -/
theorem overrides_passed_once (moment : Moment w) :
    (∃ history, w.handles = .used .empty history) ∧
    (∀ depth, (Eval.engine depth).Stays World.Proceeds) ∧
    (∀ move : Move, move.Whole → ∃ calls, Course w calls (move.apply w)) ∧
    ∀ history, w.handles = .used .empty history →
      (∀ run id h site, w.handle? id = some h → Proxy.CallsThrough run history w id h site) ∧
      (∀ run object name args, Invoke.invokeVirtual run object name args w =
        match w.registry.virtualMethod? object.cls name args with
        | some m => (w.target object m args).run run m object args w
        | none => .error (.noSuchMember (w.registry.typeName object.cls ++ "." ++ name)) w) ∧
      (∀ source s, w.handle? source = some s → s.dispatcher.isSome = true →
        ∃ view w', (Task.superView source : Task BridgeError HandleId) w = .ok view w' ∧
          w'.handles = .used .empty (.operate (.superView source) :: history) ∧
          w.handle? view = none ∧ (w'.handle? view).map Handle.target = some s.target ∧
          Waiting (.operate (.superView source) :: history) view ∧
          FirstPasses w' view s.target) ∧
      (∀ calls w', Course w calls w' →
        ∃ uses, w'.handles = .used .empty (uses ++ history) ∧
          ∀ id h, w.handle? id = some h →
            (Waiting (uses ++ history) id ↔ Waiting history id ∧ id ∉ calls)) ∧
      ∀ w', Later w w' → Moment w' ∧
        ∃ uses, w'.handles = .used .empty (uses ++ history) ∧
          ∀ id h, w.handle? id = some h →
            (Waiting (uses ++ history) id ↔ Waiting history id ∧ .take id ∉ uses) := by
  have sound := moment.sound
  refine ⟨moment.history, Eval.proceeds_engine, fun move whole => move.proceeds_apply whole, ?_⟩
  intro history made
  refine ⟨?_, Invoke.invokeVirtual_eq_target sound, ?_, ?_, ?_⟩
  · intro run id h site live
    exact Proxy.callsThrough sound made live run site
  · intro source s live overridden
    exact waiting_of_superView sound made live overridden
  · intro calls w' course
    exact course.waiting_iff made
  · intro w' later
    exact ⟨moment.later later, waiting_of_later sound made later⟩

/-- The choir's world with a super view of its handle. -/
def choirViewWorld : World := (Action.superView ⟨0⟩).apply choirWorld

theorem reachable_choirViewWorld : Reachable choirViewWorld :=
  .step reachable_choirWorld (.superView ⟨0⟩) trivial

/-- The super call of the choir's super view waits, and `greet` is overridden: the call through the
view runs the native body, also after the view has been released, which takes no super call. -/
theorem overrides_passed_choirViewWorld :
    Moment choirViewWorld ∧ ((choirViewWorld.overrides ⟨0⟩).lookup "greet").isSome = true ∧
    (∃ history h p w', choirViewWorld.handles = .used .empty history ∧
      choirViewWorld.handle? ⟨1⟩ = some h ∧ Waiting history ⟨1⟩ ∧
      (Proxy.instance ⟨1⟩).prepare ⟨"greet", [], true⟩ choirViewWorld = .ok p w' ∧
      (Proxy.instance ⟨1⟩).call Eval.run ⟨"greet", [], true⟩ choirViewWorld =
        p.finish (Invoke.runPast Eval.run w' p.method h.target p.args)
          (Proxy.enteredPast history ⟨1⟩ w')) ∧
    ∃ p w', (Proxy.instance ⟨1⟩).prepare ⟨"greet", [], true⟩
        ((Action.release ⟨1⟩).apply choirViewWorld) = .ok p w' ∧
      (Proxy.instance ⟨1⟩).call Eval.run ⟨"greet", [], true⟩
          ((Action.release ⟨1⟩).apply choirViewWorld) =
        p.finish (Invoke.runPast Eval.run w' p.method choir p.args)
          { w' with handles := (Use.take ⟨1⟩).apply w'.handles } := by
  have moment := moment_of_reachable reachable_choirViewWorld
  obtain ⟨⟨history, made⟩, _, _, after⟩ := overrides_passed_once moment
  have live : choirViewWorld.handle? ⟨1⟩ = some ⟨choir, ⟨21⟩, some ⟨0⟩, true, 1⟩ := rfl
  have waiting := (Proxy.superCall_iff_waiting made live).mp rfl
  obtain ⟨p, w', prepared⟩ :
      Task.Succeeds ((Proxy.instance ⟨1⟩).prepare ⟨"greet", [], true⟩) choirViewWorld := by
    decide +kernel
  have called := ((after history made).1 Eval.run ⟨1⟩ _ ⟨"greet", [], true⟩ live).bypass
    prepared rfl waiting
  refine ⟨moment, by decide +kernel,
    ⟨history, _, p, w', made, live, waiting, prepared, called.1⟩, ?_⟩
  -- The view is taken in the choir's world, and the course from there on is one move.
  obtain ⟨⟨start, started⟩, _, _, before⟩ :=
    overrides_passed_once (moment_of_reachable reachable_choirWorld)
  obtain ⟨view, w₁, taken, _, _, _, _, first⟩ :=
    (before start started).2.2.1 ⟨0⟩ ⟨choir, ⟨21⟩, some ⟨0⟩, false, 1⟩ rfl rfl
  obtain ⟨rfl, rfl⟩ : view = ⟨1⟩ ∧ w₁ = choirViewWorld := by
    cases taken
    exact ⟨rfl, rfl⟩
  have course : Course choirViewWorld [] ((Action.release ⟨1⟩).apply choirViewWorld) :=
    .part .now (.move (.act (.release ⟨1⟩)) trivial)
  have later : Later choirViewWorld ((Action.release ⟨1⟩).apply choirViewWorld) :=
    .step .now (.act (.release ⟨1⟩)) trivial
  obtain ⟨p', w'', prepared'⟩ : Task.Succeeds ((Proxy.instance ⟨1⟩).prepare ⟨"greet", [], true⟩)
      ((Action.release ⟨1⟩).apply choirViewWorld) := by
    decide +kernel
  exact ⟨p', w'', prepared',
    first [] _ course later List.not_mem_nil Eval.run _ p' w'' prepared' rfl⟩

/-- The choir's `speak` is final. Also with no super call left, and an override of its name in the
map, a call of it through the view gets to the native body. -/
theorem final_method_not_overridden : ∃ w, Reachable w ∧
    (w.handle? ⟨1⟩).map Handle.superCall = some false ∧
    ((w.overrides ⟨0⟩).lookup "speak").isSome = true ∧
    ∃ w', (Proxy.instance ⟨1⟩).call Eval.run ⟨"speak", [], true⟩ w = .ok (.string "choir") w' :=
  ⟨(Action.call (.instance ⟨1⟩) ⟨"greet", [], true⟩).apply choirViewWorld,
    .step reachable_choirViewWorld (.call _ _) trivial, by decide +kernel, by decide +kernel,
    _, rfl⟩

end Interop
