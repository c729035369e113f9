import Interop.Proofs.Marshal.Legality
import Interop.Proofs.World.Reachable

/-!
Calls and constructions until a body is entered. A call unwraps its arguments, chooses a method and
converts the arguments to its parameters; a construction does the same with a constructor. What is
then run with them passes all that invocation checks once more.
-/
namespace Interop

open Interop.Task (Safe)

variable {w w' : World} {m : Method}

/-- The arguments match the parameters in number and type, and an instance method has a receiver of
its declaring type. -/
structure Guarded (r : Registry) (m : Method) (receiver : Option ObjectRef) (args : List Value) :
    Prop where
  arguments : r.checkArguments m.params args (r.describeMethod m) = .ok ()
  receiver : m.isStatic = false → ∃ object, receiver = some object ∧
    r.isAssignable object.cls m.declaring = true

namespace Proxy

/-- A method with all that it is going to be run with. -/
structure Prepared where
  method : Method
  /-- How errors name the method. -/
  member : String
  receiver : Option ObjectRef
  args : List Value

/-- What a call does before its method runs: unwrap the arguments, choose a method, convert. -/
def prepare (proxy : Proxy) (site : CallSite) : Task BridgeError Prepared := do
  let args ← Marshal.unwrapAll site.args
  let m ← chooseMethod (proxy.memberType (← get)) site.method args site.onInstance
  let w ← get
  let member := w.registry.describeMethod m
  Task.emit (resolvedEvent member args.length)
  let args ← Marshal.convertArguments args m.params m.variadic
  return ⟨m, member, if site.onInstance then proxy.receiver? w else none, args⟩

theorem call_eq (run : Runner) (proxy : Proxy) (site : CallSite) :
    proxy.call run site = (do
      let p ← proxy.prepare site
      let result ← Task.mapError (BridgeError.ofNative p.member)
        (proxy.invokeChosen run p.method p.receiver p.args)
      Marshal.toScript result) := by
  simp only [call, prepare, bind_assoc, pure_bind]

/-- The rest of a call whose method has been entered. -/
def Prepared.finish (p : Prepared) (task : Task NativeError Value) :
    Task BridgeError ScriptValue := do
  let result ← Task.mapError (BridgeError.ofNative p.member) task
  Marshal.toScript result

theorem Prepared.finish_congr {p : Prepared} {task task' : Task NativeError Value}
    (same : task w = task' w') : p.finish task w = p.finish task' w' := by
  change EStateM.bind (Task.mapError _ task) _ w = EStateM.bind (Task.mapError _ task') _ w'
  unfold EStateM.bind Task.mapError
  rw [same]

theorem call_of_prepared {run : Runner} {proxy : Proxy} {site : CallSite} {p : Prepared}
    (prepared : proxy.prepare site w = .ok p w') :
    proxy.call run site w =
      p.finish (proxy.invokeChosen run p.method p.receiver p.args) w' := by
  rw [call_eq, Task.bind_ok prepared]
  rfl

theorem call_of_refused {run : Runner} {proxy : Proxy} {site : CallSite} {e : BridgeError}
    (refused : proxy.prepare site w = .error e w') : proxy.call run site w = .error e w' := by
  rw [call_eq, Task.bind_error refused]

/-- To take a super call never fails. -/
theorem takeSuperCall_ok (receiver : Option ObjectRef) (proxy : Proxy) (w : World) :
    ∃ superCall, (proxy.takeSuperCall receiver : Task NativeError Bool) w =
      .ok superCall (stateAfter ((proxy.takeSuperCall receiver : Task BridgeError Bool) w)) := by
  cases proxy with
  | cls id => exact ⟨_, rfl⟩
  | «instance» id => cases receiver <;> exact ⟨_, rfl⟩

theorem invokeChosen_of_taken {run : Runner} {proxy : Proxy} {receiver : Option ObjectRef}
    {args : List Value} {superCall : Bool}
    (taken : (proxy.takeSuperCall receiver : Task NativeError Bool) w = .ok superCall w') :
    proxy.invokeChosen run m receiver args w =
      (if superCall then Invoke.invokeSuper run m receiver args
        else Invoke.invoke run m receiver args) w' :=
  Task.bind_ok taken _

/-- A method that is found on the view of a handle is one of the object's class. -/
theorem assignable_declaring {h : Handle} (sound : w.Sound) (shown : h ∈ w.handles.handles)
    (sound' : w'.Sound) (grows : w.Grows w') (member : m ∈ w'.registry.allMethods h.view) :
    w'.registry.isAssignable h.target.cls m.declaring = true := by
  have viewed := Registry.isAssignable_mono sound.registry sound'.registry grows.registry
      (sound.handles h shown).2
  rw [Registry.isAssignable_iff sound'.registry] at viewed ⊢
  obtain ⟨n, path⟩ := Registry.declaring_of_mem_allMethods sound'.registry member
  exact viewed.trans sound'.registry.coherent (Registry.below_of_path path)

/-- A call through a handle passes all that dispatch checks. -/
theorem safe_prepare (sound : w.Sound) (proxy : Proxy) (site : CallSite) :
    Safe (proxy.prepare site) (fun w' p => ∀ {id h}, proxy = .instance id →
      w.handle? id = some h → Guarded w'.registry p.method p.receiver p.args) w := by
  refine (Marshal.safe_unwrapAll site.args sound).bind ?_
  intro args w₁ sound₁ grows₁ passable
  refine .get ((safe_chooseMethod sound₁ _ _ _ _).bind ?_)
  intro m w₂ sound₂ grows₂ candidate
  refine .get ((Task.safe_emit sound₂ _).bind ?_)
  intro _ w₃ sound₃ grows₃ _
  have known : ∀ v ∈ args, w₃.heap.Knows v :=
    fun v listed => grows₃.knows (grows₂.knows (passable v listed).1)
  refine (Marshal.safe_convertArguments sound₃ known m.params m.variadic).bind ?_
  intro converted w₄ sound₄ grows₄ fitting
  refine .pure sound₄ ?_
  rintro id h rfl live
  refine ⟨Marshal.checkArguments_ok _ fitting.accepted, fun notStatic => ?_⟩
  obtain ⟨h₁, live₁, _⟩ := grows₁.handles live
  obtain ⟨h₂, live₂, target⟩ := grows₂.handles live₁
  have view : (Proxy.instance id).memberType w₁ = h₁.view := by simp [memberType, live₁]
  rw [view] at candidate
  obtain ⟨member, onInstance⟩ := mem_allMethods_of_candidate candidate
  have called : site.onInstance = true := by
    rw [← Bool.not_eq_false]
    intro static
    simp [onInstance static] at notStatic
  have assignable := assignable_declaring sound₁ (List.mem_of_getElem? live₁) sound₂ grows₂ member
  refine ⟨h₂.target, by simp [called, receiver?, live₂], ?_⟩
  rw [target]
  exact Registry.isAssignable_mono sound₂.registry sound₄.registry
    (grows₃.trans grows₄).registry assignable

end Proxy

namespace ClassHandle

/-- What a construction does before the constructor runs. -/
def prepare (handle : ClassHandle) (args : List ScriptValue) :
    Task BridgeError (Constructor × List Value) := do
  let args ← Marshal.unwrapAll args
  let c ← Proxy.chooseConstructor handle.type args
  let args ← Marshal.convertArguments args c.params c.variadic
  return (c, args)

theorem construct_eq (run : Runner) (handle : ClassHandle) (args : List ScriptValue)
    (handler : Option Handler) :
    handle.construct run args handler = (do
      let (c, args) ← handle.prepare args
      let w ← get
      Task.mapError (BridgeError.ofNative (w.registry.describeConstructor c))
        (Invoke.construct run c args handler)) := by
  simp only [construct, prepare, bind_assoc, pure_bind]

theorem safe_prepare (sound : w.Sound) (handle : ClassHandle) (args : List ScriptValue) :
    Safe (handle.prepare args) (fun w' p =>
      w'.registry.checkArguments p.1.params p.2 (w'.registry.describeConstructor p.1) =
        .ok ()) w := by
  refine (Marshal.safe_unwrapAll args sound).bind ?_
  intro args w₁ sound₁ _ passable
  refine (Proxy.safe_chooseConstructor sound₁ handle.type args).bind ?_
  intro c w₂ sound₂ grows₂ _
  have known : ∀ v ∈ args, w₂.heap.Knows v := fun v member => grows₂.knows (passable v member).1
  refine (Marshal.safe_convertArguments sound₂ known c.params c.variadic).bind ?_
  intro converted w₃ sound₃ _ fitting
  exact .pure sound₃ (Marshal.checkArguments_ok _ fitting.accepted)

end ClassHandle

end Interop
