import Interop.Proofs.World.Frames

/-!
The way of the arguments into a call leaves all handles as they are: unwrapping, the choice of a
method and conversion may add types and objects, but neither make a handle nor change one. So a call
that fails before its method is entered has taken no super call.
-/
namespace Interop

def World.SameHandles (w w' : World) : Prop := w'.handles = w.handles

instance : IsPreorder World World.SameHandles where
  refl _ := rfl
  trans _ _ _ first second := second.trans first

namespace Task

variable {ε α : Type}

/-- Whether it succeeds or fails, the task leaves the table of handles as it is. -/
def KeepsHandles (task : Task ε α) : Prop := ∀ w, (stateAfter (task w)).handles = w.handles

theorem KeepsHandles.of_stays {task : Task ε α} (stays : ∀ w, task.Stays World.SameHandles w) :
    task.KeepsHandles :=
  stays

theorem KeepsHandles.ok {task : Task ε α} {w w' : World} {value : α} (keeps : task.KeepsHandles)
    (success : task w = .ok value w') : w'.handles = w.handles :=
  have stays : task.Stays World.SameHandles w := keeps w
  stays.ok success

theorem KeepsHandles.error {task : Task ε α} {w w' : World} {e : ε} (keeps : task.KeepsHandles)
    (failure : task w = .error e w') : w'.handles = w.handles :=
  have stays : task.Stays World.SameHandles w := keeps w
  stays.error failure

end Task

namespace Marshal

theorem arraysStay_sameHandles : ArraysStay World.SameHandles := by
  intro component elements w
  unfold Task.Stays newArray
  simp only [bind, EStateM.bind, Task.onRegistry]
  cases Registry.arrayOf component w.registry with
  | error e r => rfl
  | ok array r =>
    have read : ∀ w : World, (get : Task NativeError World) w = .ok w w := fun _ => rfl
    simp only [read, Task.ofExcept]
    cases r.checkElements component 0 elements <;> rfl

theorem keeps_unwrapAll (values : List ScriptValue) : (unwrapAll values).KeepsHandles :=
  .of_stays fun _ => arraysStay_sameHandles.unwrapAll values

end Marshal

namespace Proxy

theorem keeps_chooseMethod (type : TypeId) (name : String) (args : List Value) (onInstance : Bool) :
    (chooseMethod type name args onInstance).KeepsHandles :=
  .of_stays fun _ => .get (.set rfl (.result _))

theorem keeps_prepare (proxy : Proxy) (site : CallSite) : (proxy.prepare site).KeepsHandles := by
  have arrays := Marshal.arraysStay_sameHandles
  refine .of_stays fun w => (arrays.unwrapAll site.args).bind fun args w₁ _ => .get ?_
  refine Task.Stays.bind (keeps_chooseMethod _ site.method args site.onInstance w₁) ?_
  refine fun m w₂ _ => .get (.bind (.modify rfl) fun _ _ _ => ?_)
  exact (arrays.convertArguments args m.params m.variadic).bind fun _ _ _ => .pure _

/-- A call through a handle has the handle's object as its receiver, unless it is static. -/
theorem prepare_receiver {proxy : Proxy} {site : CallSite} {w w' : World} {p : Prepared}
    (prepared : proxy.prepare site w = .ok p w') :
    p.receiver = if site.onInstance then proxy.receiver? w else none := by
  obtain ⟨args, w₁, unwrapped, rest⟩ := Task.of_bind_ok prepared
  rw [Task.get_bind] at rest
  obtain ⟨m, w₂, chosen, rest⟩ := Task.of_bind_ok rest
  rw [Task.get_bind] at rest
  obtain ⟨_, w₃, _, rest⟩ := Task.of_bind_ok rest
  obtain ⟨converted, w₄, _, rest⟩ := Task.of_bind_ok rest
  have handles : w₂.handles = w.handles :=
    ((keeps_chooseMethod _ _ _ _).ok chosen).trans ((Marshal.keeps_unwrapAll _).ok unwrapped)
  have same : proxy.receiver? w₂ = proxy.receiver? w := by
    cases proxy with
    | cls id => rfl
    | «instance» id => simp only [receiver?, World.handle?, handles]
  cases rest
  rw [same]

end Proxy

end Interop
