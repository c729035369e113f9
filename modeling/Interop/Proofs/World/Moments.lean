import Interop.Proofs.World.Preparation

/-!
Worlds at any moment. An action of the host or of a script may enter bodies of methods and script
functions, which act in turn before the action ends, so the worlds between actions are not all there
is. A moment is a world that is reached by actions and by their parts: what a call does until its
method is entered, what an override or a constructor does until its code is entered, and what parts
of code do that have run. All these worlds are sound, and the table of handles has a history at each
of them.
-/
namespace Interop

open Interop.Task (Safe)

variable {w w' w'' : World}

inductive Move where
  | act (action : Action)
  -- Parts of code that run in a body that has been entered. What they call may also stop at any
  -- point: the runner is any safe one.
  | native (run : Runner) (frame : Frame) (code : Code)
  | script (run : Runner) (frame : Eval.ScriptFrame) (code : ScriptCode)
  | openScope
  | closeScope (outer result : List HandleId)
  | hold (value : ScriptValue)
  | note (event : Event)
  | log (entry : LogEntry)
  -- A call until its method is entered.
  | prepareCall (proxy : Proxy) (site : CallSite)
  | takeSuperCall (proxy : Proxy) (receiver : Option ObjectRef)
  -- An override until its function is entered.
  | receiverHandle (dispatcher : DispatcherId) (receiver : ObjectRef)
  | toScript (value : Value)
  -- A construction until the constructor is entered.
  | prepareNew (handle : ClassHandle) (args : List ScriptValue)
  | addDispatcher (overrides : Overrides)
  | allocate (c : Constructor) (args : List Value) (handler : Option Handler)
  -- What else a host can do with types, objects and handles.
  | generateSubclass (base : TypeId)
  | generateImplementation (interface : TypeId)
  | invokeForced (m : Method) (receiver : Option ObjectRef) (args : List Value)
  | invokeDirect (m : Method) (receiver : ObjectRef) (args : List Value)
  | invokeSuper (m : Method) (receiver : Option ObjectRef) (args : List Value)
  | setField (f : Field) (receiver : Option ObjectRef) (value : Value)
  | storeElement (array : ObjectRef) (index : Nat) (value : Value)
  | castTo (id : HandleId) (type : TypeId)
  | setAlias (name : String) (id : TypeId)
  | removeVariable (name : String)
  | purge

namespace Move

/-- The world after a move, whether it succeeds or fails. -/
def apply (w : World) : Move → World
  | act action => action.apply w
  | native run frame code => stateAfter (Eval.code run frame code w)
  | script run frame code => stateAfter (Eval.script run frame code w)
  | openScope => { w with held := [] }
  | closeScope outer result => w.endScope outer result
  | hold value => w.hold value
  | note event => stateAfter ((Task.emit event : Task BridgeError Unit) w)
  | log entry => stateAfter ((Task.logEntry entry : Task BridgeError Unit) w)
  | prepareCall proxy site => stateAfter (proxy.prepare site w)
  | takeSuperCall proxy receiver =>
    stateAfter ((proxy.takeSuperCall receiver : Task BridgeError Bool) w)
  | receiverHandle dispatcher receiver =>
    stateAfter ((Invoke.receiverHandle dispatcher receiver : Task BridgeError HandleId) w)
  | toScript value => stateAfter ((Marshal.toScript value : Task BridgeError ScriptValue) w)
  | prepareNew handle args => stateAfter (handle.prepare args w)
  | addDispatcher overrides =>
    { w with dispatchers := w.dispatchers ++ [Dispatcher.mk overrides none] }
  -- Without room for a body the engine stops where the constructor would be entered.
  | allocate c args handler => stateAfter (Invoke.construct (Eval.engine 0) c args handler w)
  | generateSubclass base =>
    stateAfter (Task.onRegistryNoted (Registry.generateSubclass base) w)
  | generateImplementation interface =>
    stateAfter (Task.onRegistryNoted (Registry.generateImplementation interface) w)
  | invokeForced m receiver args => stateAfter (Invoke.invokeForced Eval.run m receiver args w)
  | invokeDirect m receiver args => stateAfter (Invoke.invokeDirect Eval.run m receiver args w)
  | invokeSuper m receiver args => stateAfter (Invoke.invokeSuper Eval.run m receiver args w)
  | setField f receiver value => stateAfter (Invoke.setField f receiver value w)
  | storeElement array index value => stateAfter (Invoke.storeElement array index value w)
  | castTo id type => stateAfter (id.cast type w)
  | setAlias name id => w.setAlias name id
  | removeVariable name => w.removeVariable name
  | purge => { w with handles := w.handles.purge.2 }

/-- What is passed in refers to objects that are there, and to members that types declare. -/
def Allowed (w : World) : Move → Prop
  | act action => action.Allowed w
  | native run frame code => run.Safe ∧ (∀ v ∈ code.values, w.heap.Knows v) ∧ frame.Known w
  | script run _ _ => run.Safe
  | receiverHandle _ receiver => w.heap.Holds receiver
  | toScript value => w.heap.Knows value
  | allocate c args _ => c.Declared w.registry ∧ ∀ v ∈ args, w.heap.Knows v
  | invokeForced m receiver args =>
    (∃ i, m ∈ w.registry.allMethods i) ∧ (∀ ref, receiver = some ref → w.heap.Holds ref) ∧
      ∀ v ∈ args, w.heap.Knows v
  | invokeDirect m receiver args =>
    (∃ i, m ∈ w.registry.allMethods i) ∧ w.heap.Holds receiver ∧ ∀ v ∈ args, w.heap.Knows v
  | invokeSuper m receiver args =>
    (∃ i, m ∈ w.registry.allMethods i) ∧ (∀ ref, receiver = some ref → w.heap.Holds ref) ∧
      ∀ v ∈ args, w.heap.Knows v
  | setField _ _ value => w.heap.Knows value
  | storeElement array _ value => w.heap.Holds array ∧ w.heap.Knows value
  | _ => True

theorem sound_removeVariable (sound : w.Sound) (name : String) :
    (w.removeVariable name).Sound ∧ w.Grows (w.removeVariable name) := by
  have kept : w.handles.Evolves w.Shows (w.removeVariable name).handles :=
    HandleTable.evolves_foldl (fun _ id => HandleTable.evolves_drop id) _ _
  obtain ⟨sound', grows⟩ := sound.withHandles kept (HandleTable.used_dropAll _ _)
  have removed : (w.removeVariable name).Sound ∧ _ := sound'.unaffected rfl rfl rfl rfl rfl
  exact ⟨removed.1, grows.trans removed.2⟩

theorem grows_apply {move : Move} (sound : w.Sound) (allowed : move.Allowed w) :
    (move.apply w).Sound ∧ w.Grows (move.apply w) := by
  have run : Eval.run.Safe := Eval.safe_engine Eval.maxDepth
  cases move with
  | act action => exact Action.grows_apply sound allowed
  | native run frame code =>
    obtain ⟨safe, values, known⟩ := allowed
    exact (Eval.safe_code safe code sound values known).state
  | script run frame code => exact (Eval.safe_script allowed code sound).state
  | openScope => exact sound.unaffected rfl rfl rfl rfl rfl
  | closeScope outer result => exact Task.sound_endScope sound outer result
  | hold value => exact Invoke.sound_hold sound value
  | note event => exact Action.sound_after (Task.safe_emit sound event)
  | log entry => exact Action.sound_after (Task.safe_logEntry sound entry)
  | prepareCall proxy site => exact (Proxy.safe_prepare sound proxy site).state
  | takeSuperCall proxy receiver =>
    exact Action.sound_after (Proxy.safe_takeSuperCall sound receiver proxy)
  | receiverHandle dispatcher receiver =>
    exact Action.sound_after (Invoke.safe_receiverHandle dispatcher sound allowed)
  | toScript value => exact Action.sound_after (Marshal.safe_toScript sound allowed)
  | prepareNew handle args => exact (ClassHandle.safe_prepare sound handle args).state
  | addDispatcher overrides => exact sound.unaffected rfl rfl rfl rfl rfl
  | allocate c args handler =>
    exact (Invoke.safe_construct (Eval.safe_engine 0) sound allowed.1 allowed.2).state
  | generateSubclass base => exact (Bridge.safe_generateSubclass sound base).state
  | generateImplementation interface =>
    exact (Bridge.safe_generateImplementation sound interface).state
  | invokeForced m receiver args =>
    obtain ⟨⟨i, member⟩, held, known⟩ := allowed
    exact (Invoke.safe_dispatch run sound false (sound.method_of_mem member)
      (fun {ref} => held ref) known).state
  | invokeDirect m receiver args =>
    obtain ⟨⟨i, member⟩, held, known⟩ := allowed
    exact (Invoke.safe_invokeDirect run sound (sound.method_of_mem member) held known).state
  | invokeSuper m receiver args =>
    obtain ⟨⟨i, member⟩, held, known⟩ := allowed
    exact (Invoke.safe_invokeSuper run sound (sound.method_of_mem member)
      (fun {ref} => held ref) known).state
  | setField f receiver value => exact (Invoke.safe_setField f sound allowed).state
  | storeElement array index value =>
    exact (Invoke.safe_storeElement sound allowed.1 allowed.2).state
  | castTo id type => exact (HandleId.safe_cast sound id type).state
  | setAlias name id => exact sound.unaffected rfl rfl rfl rfl rfl
  | removeVariable name => exact sound_removeVariable sound name
  | purge =>
    exact sound.withHandles (.same rfl) (HandleTable.used_apply w.handles .purge)

end Move

/-- The second world is reached from the first by moves. -/
inductive Later (w : World) : World → Prop where
  | now : Later w w
  | step {w' : World} (before : Later w w') (move : Move) (allowed : move.Allowed w') :
      Later w (move.apply w')

theorem Later.trans (first : Later w w') (second : Later w' w'') : Later w w'' := by
  induction second with
  | now => exact first
  | step _ move allowed ih => exact .step ih move allowed

theorem Later.grows (later : Later w w') (sound : w.Sound) : w'.Sound ∧ w.Grows w' := by
  induction later with
  | now => exact ⟨sound, World.Grows.refl w⟩
  | step _ move allowed ih =>
    obtain ⟨sound', grows⟩ := Move.grows_apply ih.1 allowed
    exact ⟨sound', ih.2.trans grows⟩

def Moment (w : World) : Prop := ∃ config gate, Later (.initial config gate) w

theorem Moment.later (moment : Moment w) (later : Later w w') : Moment w' := by
  obtain ⟨config, gate, before⟩ := moment
  exact ⟨config, gate, before.trans later⟩

theorem Moment.sound (moment : Moment w) : w.Sound := by
  obtain ⟨config, gate, later⟩ := moment
  exact (later.grows (sound_initial config gate)).1

theorem moment_of_reachable (reachable : Reachable w) : Moment w := by
  induction reachable with
  | initial config gate => exact ⟨config, gate, .now⟩
  | step _ action allowed ih => exact ih.later (.step .now (.act action) allowed)

/-- At each moment the handles are what a history of uses has made of them. -/
theorem Moment.history (moment : Moment w) : ∃ history, w.handles = .used .empty history := by
  obtain ⟨config, gate, later⟩ := moment
  exact (later.grows (sound_initial config gate)).2.uses

end Interop
