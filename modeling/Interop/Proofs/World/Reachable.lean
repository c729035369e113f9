import Interop.Proofs.Registry.Consistency
import Interop.Proofs.World.Engine

/-!
The worlds that a host and its scripts can reach: types are defined and looked up, objects are made
and called, and scripts use the bridge, in any order, with or without success. What the host passes
in has to be values of that world. All these worlds are sound.
-/
namespace Interop

open Interop.Task (Safe)

variable {w : World}

inductive Action where
  | define (draft : TypeDraft)
  | defineWith (resolver : TypeId → Registry.Resolver)
  | lookup (name : String)
  | arrayOf (component : TypeId)
  | newArray (component : TypeId) (elements : List Value)
  | construct (c : Constructor) (args : List Value) (handler : Option Handler)
  | invoke (m : Method) (receiver : Option ObjectRef) (args : List Value)
  | setNativeVariable (name : String) (value : Value)
  | turnGate (isOpen : Bool)
  | getClass (name : String)
  | extend (name : String)
  | implement (name : String)
  | newInstance (handle : ClassHandle) (args : List ScriptValue)
  | newInstanceWithOverrides (handle : ClassHandle) (overrides : ScriptValue)
      (args : List ScriptValue)
  | wrap (value : Value)
  | cast (name : String) (value : ScriptValue)
  | call (proxy : Proxy) (site : CallSite)
  | getField (proxy : Proxy) (name : String)
  | setField (proxy : Proxy) (name : String) (value : ScriptValue)
  | isInstanceOf (id : HandleId) (name : String)
  | superView (id : HandleId)
  | setOverrides (id : HandleId) (overrides : ScriptValue)
  | release (id : HandleId)
  | addFunction (body : ScriptCode)
  | setVariable (name : String) (value : ScriptValue)
  | endScope

namespace Action

/-- The world after an action, whether it succeeds or fails. -/
def apply (w : World) : Action → World
  | define draft => stateAfter (Task.onRegistryNoted (Registry.define draft) w)
  | defineWith resolver => stateAfter (Task.onRegistryNoted (Registry.defineWith resolver) w)
  | lookup name => stateAfter ((Task.lookupType name : Task BridgeError _) w)
  | arrayOf component => stateAfter (Task.onRegistry (Registry.arrayOf component) w)
  | newArray component elements => stateAfter (Marshal.newArray component elements w)
  | construct c args handler => stateAfter (Invoke.construct Eval.run c args handler w)
  | invoke m receiver args => stateAfter (Invoke.invoke Eval.run m receiver args w)
  | setNativeVariable name value => w.setNativeVariable name value
  | turnGate isOpen => { w with gate := w.gate.turn isOpen }
  | getClass name => stateAfter (Bridge.getClass name w)
  | extend name => stateAfter (Bridge.extend name w)
  | implement name => stateAfter (Bridge.implement name w)
  | newInstance handle args => stateAfter (handle.newInstance Eval.run args w)
  | newInstanceWithOverrides handle overrides args =>
    stateAfter (handle.newInstanceWithOverrides Eval.run overrides args w)
  | wrap value => stateAfter (Bridge.wrap value w)
  | cast name value => stateAfter (Bridge.cast name value w)
  | call proxy site => stateAfter (proxy.call Eval.run site w)
  | getField proxy name => stateAfter (proxy.getField name w)
  | setField proxy name value => stateAfter (proxy.setField name value w)
  | isInstanceOf id name => stateAfter ((id.isInstanceOf name : Task BridgeError _) w)
  | superView id => stateAfter ((Task.superView id : Task BridgeError _) w)
  | setOverrides id overrides => stateAfter (id.setOverrides overrides w)
  | release id => stateAfter ((id.release : Task BridgeError _) w)
  | addFunction body => stateAfter ((Task.addFunction body : Task BridgeError _) w)
  | setVariable name value => w.setVariable name value
  | endScope => w.endScope [] []

/-- What the host passes in refers to objects that are there, and to members that types declare. -/
def Allowed (w : World) : Action → Prop
  | define draft => ∀ v ∈ draft.values, w.heap.Knows v
  | defineWith resolver => ∀ v ∈ (w.registry.resolved resolver).1.values, w.heap.Knows v
  | newArray _ elements => ∀ v ∈ elements, w.heap.Knows v
  | construct c args _ => c.Declared w.registry ∧ ∀ v ∈ args, w.heap.Knows v
  | invoke m receiver args =>
    (∃ i, m ∈ w.registry.allMethods i) ∧ (∀ ref, receiver = some ref → w.heap.Holds ref) ∧
      ∀ v ∈ args, w.heap.Knows v
  | setNativeVariable _ value => w.heap.Knows value
  | wrap value => w.heap.Knows value
  | _ => True

theorem safe_defineWith {resolver : TypeId → Registry.Resolver} (sound : w.Sound)
    (known : ∀ v ∈ (w.registry.resolved resolver).1.values, w.heap.Knows v) :
    Safe (Task.onRegistryNoted (Registry.defineWith resolver)) (fun _ _ => True) w := by
  apply Bridge.safe_onRegistryNoted
  rintro r rfl
  exact sound.withDefinition (sound.registry.defineWith resolver) known

theorem safe_define {draft : TypeDraft} (sound : w.Sound)
    (known : ∀ v ∈ draft.values, w.heap.Knows v) :
    Safe (Task.onRegistryNoted (Registry.define draft)) (fun _ _ => True) w := by
  apply Bridge.safe_onRegistryNoted
  rintro r rfl
  rw [Registry.define_eq]
  split
  · exact ⟨sound, World.Grows.refl w⟩
  · exact sound.withDefinition (sound.registry.defineWith _) known

theorem sound_setNativeVariable {v : Value} (sound : w.Sound) (name : String)
    (known : w.heap.Knows v) :
    (w.setNativeVariable name v).Sound ∧ w.Grows (w.setNativeVariable name v) := by
  have growing := World.Grows.refl w
  refine ⟨⟨sound.registry, sound.code, sound.objects, sound.statics, ?_, sound.handles,
    sound.memo⟩, growing.registry, growing.heap, growing.handles, growing.uses⟩
  intro entry member
  rcases List.mem_cons.mp member with rfl | old
  · exact known
  · exact sound.native_variables entry (List.mem_filter.mp old).1

theorem sound_turnGate (sound : w.Sound) (isOpen : Bool) :
    World.Sound { w with gate := w.gate.turn isOpen } ∧
      w.Grows { w with gate := w.gate.turn isOpen } :=
  sound.unaffected rfl rfl rfl rfl rfl

/-- The state after a safe task, where its failures are of no type in particular. -/
theorem sound_after {α : Type} {task : Task BridgeError α} {post : World → α → Prop}
    (safe : Safe task post w) :
    (stateAfter (task w)).Sound ∧ w.Grows (stateAfter (task w)) :=
  safe.state

/-- Every action keeps the world sound and lets it only grow. -/
theorem grows_apply {action : Action} (sound : w.Sound) (allowed : action.Allowed w) :
    (action.apply w).Sound ∧ w.Grows (action.apply w) := by
  have run : Eval.run.Safe := Eval.safe_engine Eval.maxDepth
  cases action with
  | define draft => exact (safe_define sound allowed).state
  | defineWith resolver => exact (safe_defineWith sound allowed).state
  | lookup name => exact sound_after (Task.safe_lookupType sound name)
  | arrayOf component => exact (Task.safe_arrayOf sound component).state
  | newArray component elements => exact (Marshal.safe_newArray sound component allowed).state
  | construct c args handler => exact (Invoke.safe_construct run sound allowed.1 allowed.2).state
  | invoke m receiver args =>
    obtain ⟨⟨i, member⟩, held, known⟩ := allowed
    exact (Invoke.safe_dispatch run sound true (sound.method_of_mem member)
      (fun {ref} => held ref) known).state
  | setNativeVariable name value => exact sound_setNativeVariable sound name allowed
  | turnGate isOpen => exact sound_turnGate sound isOpen
  | getClass name => exact (Bridge.safe_getClass sound name).state
  | extend name => exact (Bridge.safe_extend sound name).state
  | implement name => exact (Bridge.safe_implement sound name).state
  | newInstance handle args => exact (ClassHandle.safe_newInstance run sound handle args).state
  | newInstanceWithOverrides handle overrides args =>
    exact (ClassHandle.safe_newInstanceWithOverrides run sound handle overrides args).state
  | wrap value => exact (Bridge.safe_wrap sound allowed).state
  | cast name value => exact (Bridge.safe_cast sound name value).state
  | call proxy site => exact (Proxy.safe_call run sound proxy site).state
  | getField proxy name => exact (Proxy.safe_getField sound proxy name).state
  | setField proxy name value => exact (Proxy.safe_setField sound proxy name value).state
  | isInstanceOf id name => exact sound_after (HandleId.safe_isInstanceOf sound id name)
  | superView id => exact sound_after (Task.safe_superView sound id)
  | setOverrides id overrides => exact (HandleId.safe_setOverrides sound id overrides).state
  | release id => exact sound_after (HandleId.safe_release sound id)
  | addFunction body => exact sound_after (Task.safe_addFunction sound body)
  | setVariable name value => exact Eval.sound_setVariable sound name value
  | endScope => exact Task.sound_endScope sound [] []

theorem sound_apply {action : Action} (sound : w.Sound) (allowed : action.Allowed w) :
    (action.apply w).Sound :=
  (grows_apply sound allowed).1

end Action

inductive Reachable : World → Prop where
  | initial (config : Config) (gate : Gate) : Reachable (.initial config gate)
  | step {w : World} (before : Reachable w) (action : Action) (allowed : action.Allowed w) :
      Reachable (action.apply w)

/-- The first types have no code of their own. -/
theorem sound_initial (config : Config) (gate : Gate) : (World.initial config gate).Sound := by
  have bare : Registry.firstTypes.all (fun t => t.values.isEmpty) = true := by decide
  refine ⟨Registry.settled_initial, ?_, nofun, nofun, nofun, nofun, nofun⟩
  intro i t found v member
  have empty := List.all_eq_true.mp bare t (Registry.initial_get?_iff.mp found).1
  rw [List.isEmpty_iff.mp empty] at member
  cases member

theorem Reachable.sound (reachable : Reachable w) : w.Sound := by
  induction reachable with
  | initial config gate => exact sound_initial config gate
  | step _ action allowed ih => exact Action.sound_apply ih allowed

end Interop
