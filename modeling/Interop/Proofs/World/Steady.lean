import Interop.Proofs.World.Evaluation
import Interop.Proofs.World.Pieces

/-!
Whole runs. A call enters the body of a method or a script function, which calls in turn, and so on
as far as the engine has room. A relation of worlds that allows what happens between one entry of a
body and the next allows whole runs: of calls and constructions if it allows what the runner does,
and of all code, by what is known of evaluation. The engine follows by induction on its room.
-/
namespace Interop

open Interop.Task (Meets Stays)

variable {R : World → World → Prop} {run : Runner} {w : World}

/-- Running code stays in the relation. -/
structure Runner.Stays (R : World → World → Prop) (run : Runner) : Prop where
  native : ∀ code frame {w}, (run.native code frame).Stays R w
  script : ∀ id this args {w}, (run.script id this args).Stays R w

theorem Runner.Stays.mono {S : World → World → Prop} (runs : run.Stays S)
    (weaker : ∀ {w w' : World}, S w w' → R w w') : run.Stays R :=
  ⟨fun code frame _ => weaker (runs.native code frame),
    fun id this args _ => weaker (runs.script id this args)⟩

/-- The relation allows what code does from one entry of a body to the next. -/
structure Steady (R : World → World → Prop) : Prop where
  emit : ∀ (w : World) event, R w { w with events := w.events ++ [event] }
  logEntry : ∀ (w : World) entry, R w { w with log := w.log ++ [entry] }
  addFunction : ∀ (w : World) body, R w { w with functions := w.functions ++ [body] }
  lookup : ∀ (w : World) name, R w { w with registry := (Registry.lookup name w.registry).2 }
  arrayOf : ∀ component {w}, (Task.onRegistry (Registry.arrayOf component)).Stays R w
  arrays : Marshal.ArraysStay R
  storeElement : ∀ array index value {w}, (Invoke.storeElement array index value).Stays R w
  wraps : Marshal.WrapsStay R
  superView : ∀ id {w}, (Task.superView id : Task BridgeError HandleId).Stays R w
  openScope : ∀ w : World, R w { w with held := [] }
  endScope : ∀ (w : World) outer result, R w (w.endScope outer result)
  hold : ∀ (w : World) value, R w (w.hold value)
  setVariable : ∀ (w : World) name value, R w (w.setVariable name value)
  setField : ∀ (proxy : Proxy) name value {w}, (proxy.setField name value).Stays R w
  setOverrides : ∀ (id : HandleId) overrides {w}, (id.setOverrides overrides).Stays R w
  -- A call until its method is entered: it may fail on the way, or take a super call at the end.
  prepareCall : ∀ (proxy : Proxy) site {w}, (proxy.prepare site).Stays R w
  enter : ∀ {proxy : Proxy} {site p w w'}, proxy.prepare site w = .ok p w' →
    R w (stateAfter ((proxy.takeSuperCall p.receiver : Task BridgeError Bool) w'))
  prepareNew : ∀ (handle : ClassHandle) args {w}, (handle.prepare args).Stays R w
  newObject : ∀ (w : World) cls {handler : Option Handler},
    handler.bind Handler.dispatcher? = none →
    R w { w with
      heap := (w.heap.alloc ⟨cls, .fields (w.registry.instanceDefaults cls), handler⟩).2 }
  -- A dispatcher and its object come together.
  constructBound : ∀ {run : Runner}, run.Stays R → ∀ (handle : ClassHandle) overrides args {w},
    (handle.constructBound run overrides args).Stays R w

/-- Pieces, and the entry of bodies. -/
theorem Pieces.steady [IsPreorder World R] (pieces : Pieces R)
    (takeSuperCall : ∀ receiver (proxy : Proxy) {w},
      (proxy.takeSuperCall receiver : Task BridgeError Bool).Stays R w)
    (constructBound : ∀ {run : Runner}, run.Stays R → ∀ (handle : ClassHandle) overrides args {w},
      (handle.constructBound run overrides args).Stays R w) : Steady R where
  emit _ _ := pieces.aside rfl rfl rfl rfl
  logEntry _ _ := pieces.aside rfl rfl rfl rfl
  addFunction _ _ := pieces.aside rfl rfl rfl rfl
  lookup := pieces.lookup
  arrayOf component := pieces.stays_arrayOf component
  arrays := pieces.arrays
  storeElement array index value := pieces.stays_storeElement array index value
  wraps := pieces.wraps
  superView id := pieces.stays_superView id
  openScope _ := pieces.aside rfl rfl rfl rfl
  endScope := pieces.endScope
  hold := pieces.hold
  setVariable := pieces.setVariable
  setField := pieces.setField
  setOverrides id overrides := pieces.stays_setOverrides id overrides
  prepareCall proxy site := pieces.stays_prepareCall proxy site
  enter prepared :=
    trans_of R ((pieces.stays_prepareCall _ _).ok prepared) (takeSuperCall _ _)
  prepareNew handle args := pieces.stays_prepareNew handle args
  newObject := pieces.newObject
  constructBound := constructBound

theorem Task.Stays.meets {ε α : Type} {task : Task ε α} (stays : task.Stays R w) :
    task.Meets (fun _ => True) R (fun _ _ => True) w := by
  unfold Meets
  split
  · next success => exact ⟨trivial, stays.ok success, trivial⟩
  · next failure => exact ⟨trivial, stays.error failure⟩

/-- A construction whose object may be made. -/
theorem Invoke.stays_construct [IsPreorder World R] (runs : run.Stays R)
    (emit : ∀ (w : World) event, R w { w with events := w.events ++ [event] }) (c : Constructor)
    (args : List Value) {handler : Option Handler}
    (made : ∀ cls, R w { w with
      heap := (w.heap.alloc ⟨cls, .fields (w.registry.instanceDefaults cls), handler⟩).2 }) :
    (construct run c args handler).Stays R w := by
  refine .get (.ofExcept fun t _ => .guard fun _ => .ofExcept fun _ _ => .set (made t.id) ?_)
  cases c.body with
  | none => exact Stays.bind (.modify (emit _ _)) fun _ _ _ => .pure _
  | some body =>
    refine (runs.native body _).bind fun _ w₁ _ => ?_
    exact Stays.bind (.modify (emit w₁ _)) fun _ _ _ => .pure _

namespace Steady

variable [IsPreorder World R] (steady : Steady R)
include steady

theorem stays_inScope {ε α : Type} {task : Task ε α} {kept : α → List HandleId}
    (stays : ∀ {w'}, task.Stays R w') : (task.inScope kept).Stays R w := by
  have inner : task.Stays R { w with held := [] } := stays
  unfold Stays Task.inScope
  cases result : task { w with held := [] } with
  | ok value after =>
    have reached := trans_of R (steady.openScope w) (inner.ok result)
    exact trans_of R reached (steady.endScope after w.held (kept value))
  | error e after =>
    have reached := trans_of R (steady.openScope w) (inner.error result)
    exact trans_of R reached (steady.endScope after w.held [])

variable (runs : run.Stays R)
include runs

omit steady in
theorem stays_runBody (body : Body) (frame : Frame) :
    (Invoke.runBody run body frame).Stays R w := by
  cases body with
  | code c => exact runs.native c frame
  | identityEquals => exact .ofExcept fun _ _ => .ofExcept fun _ _ => .pure _
  | identityHash => exact .ofExcept fun _ _ => .pure _
  | identityText => exact .ofExcept fun _ _ => .get (.pure _)

omit steady in
theorem stays_runMethod (m : Method) (receiver : Option ObjectRef) (args : List Value) :
    (Invoke.runMethod run m receiver args).Stays R w := by
  unfold Invoke.runMethod
  cases m.body with
  | none => exact .get (.throw _)
  | some body => exact (stays_runBody runs body _).bind fun _ _ _ => .pure _

omit steady in
theorem stays_invokeDirect (m : Method) (receiver : ObjectRef) (args : List Value) :
    (Invoke.invokeDirect run m receiver args).Stays R w :=
  .get (stays_runMethod runs _ _ _)

omit steady runs in
theorem stays_withAbstractDefault {task : Task NativeError Value} (m : Method)
    (stays : task.Stays R w) : (Invoke.withAbstractDefault m task).Stays R w :=
  stays.outcome.bind fun _ _ _ => .get (.result _)

theorem stays_callOverride (dispatcher : DispatcherId) (receiver : ObjectRef) (m : Method)
    (function : FunctionId) (args : List Value) :
    (Invoke.callOverride run dispatcher receiver m function args).Stays R w := by
  refine steady.stays_inScope ?_
  intro w₀
  refine (Invoke.stays_receiverHandle steady.wraps steady.hold dispatcher receiver).bind ?_
  intro this _ _
  refine (steady.wraps.toScriptAll args).bind fun scriptArgs _ _ => ?_
  refine ((runs.script function _ scriptArgs).mapError _).bind fun result _ _ => ?_
  split
  · exact .pure _
  · refine Stays.mapError ?_ _
    exact (steady.arrays.unwrap result).bind fun value _ _ => steady.arrays.convert _ _

theorem stays_invokeOverridden (dispatcher : DispatcherId) (receiver : ObjectRef) (m : Method)
    (args : List Value) : (Invoke.invokeOverridden run dispatcher receiver m args).Stays R w := by
  refine .get ?_
  split
  · exact .pure _
  · dsimp only
    split
    · refine Stays.bind (.modify (steady.emit w _)) fun _ _ _ => ?_
      exact steady.stays_callOverride runs dispatcher receiver m _ args
    · exact stays_withAbstractDefault m (stays_invokeDirect runs m receiver args)

theorem stays_dispatch (throughHandler : Bool) (m : Method) (receiver : Option ObjectRef)
    (args : List Value) : (Invoke.dispatch run throughHandler m receiver args).Stays R w := by
  refine .get (.ofExcept fun _ _ => ?_)
  split
  · exact stays_runMethod runs m none args
  · split
    · exact .throw _
    · next object =>
      refine .guard fun _ => ?_
      dsimp only
      generalize (if throughHandler && !m.isFinal then w.heap.handler? object else none) = handler
      split
      · exact steady.stays_invokeOverridden runs _ object m args
      · refine Stays.bind (.modify (steady.logEntry w _)) fun _ _ _ => ?_
        exact stays_invokeDirect runs m object args
      · exact stays_invokeDirect runs m object args

theorem stays_invokeSuper (m : Method) (receiver : Option ObjectRef) (args : List Value) :
    (Invoke.invokeSuper run m receiver args).Stays R w := by
  refine Stays.bind (.modify (steady.emit w _)) fun _ _ _ => ?_
  exact stays_withAbstractDefault m (steady.stays_dispatch runs false m receiver args)

theorem stays_invokeVirtual (receiver : ObjectRef) (name : String) (args : List Value) :
    (Invoke.invokeVirtual run receiver name args).Stays R w := by
  refine .get ?_
  split
  · exact steady.stays_dispatch runs true _ _ args
  · exact .throw _

theorem stays_construct (c : Constructor) (args : List Value) {handler : Option Handler}
    (plain : handler.bind Handler.dispatcher? = none) :
    (Invoke.construct run c args handler).Stays R w :=
  Invoke.stays_construct runs steady.emit c args fun cls => steady.newObject w cls plain

/-- Of a call, what comes before the method is one step: the preparation and, if it succeeds, the
taking of a super call. -/
theorem stays_call (proxy : Proxy) (site : CallSite) : (proxy.call run site).Stays R w := by
  unfold Stays
  cases prepared : proxy.prepare site w with
  | error e w' =>
    rw [Proxy.call_of_refused prepared]
    exact (steady.prepareCall proxy site).error prepared
  | ok p w' =>
    obtain ⟨superCall, taken⟩ := Proxy.takeSuperCall_ok p.receiver proxy w'
    rw [Proxy.call_of_prepared prepared,
      Proxy.Prepared.finish_congr (Proxy.invokeChosen_of_taken taken)]
    refine trans_of R (steady.enter prepared) (Stays.bind (Stays.mapError ?_ _) ?_)
    · split
      · exact steady.stays_invokeSuper runs p.method p.receiver p.args
      · exact steady.stays_dispatch runs true p.method p.receiver p.args
    · exact fun result _ _ => steady.wraps.toScript result

theorem stays_classConstruct (handle : ClassHandle) (args : List ScriptValue) :
    (handle.construct run args none).Stays R w := by
  rw [ClassHandle.construct_eq]
  refine (steady.prepareNew handle args).bind fun p _ _ => .get ?_
  exact Stays.mapError (steady.stays_construct runs p.1 p.2 rfl) _

theorem stays_newInstance (handle : ClassHandle) (args : List ScriptValue) :
    (handle.newInstance run args).Stays R w := by
  unfold ClassHandle.newInstance
  split
  · refine (steady.stays_classConstruct runs handle _).bind fun object w₁ _ => ?_
    exact steady.wraps object w₁
  · exact steady.constructBound runs handle _ _
  · split
    · exact .ofExcept fun overrides _ => steady.constructBound runs handle overrides []
    · exact .throw _

theorem stays_newInstanceWithOverrides (handle : ClassHandle) (overrides : ScriptValue)
    (args : List ScriptValue) : (handle.newInstanceWithOverrides run overrides args).Stays R w := by
  unfold ClassHandle.newInstanceWithOverrides
  refine .guard fun _ => ?_
  split
  · exact .throw _
  · exact .ofExcept fun overrides _ => steady.constructBound runs handle overrides _

/-- Nothing has to be known of values here. -/
theorem steps : Eval.Steps (fun _ => True) R (fun _ _ => True) run where
  lasting _ _ := trivial
  plain _ := trivial
  field _ _ := trivial
  element _ _ := trivial
  nativeVariable _ _ := trivial
  target _ _ := trivial
  openScope _ := ⟨trivial, steady.openScope _⟩
  endScope outer result _ := ⟨trivial, steady.endScope _ outer result⟩
  hold value _ := ⟨trivial, steady.hold _ value⟩
  setVariable name value _ := ⟨trivial, steady.setVariable _ name value⟩
  lookupType name _ := Stays.meets (steady.lookup _ name)
  arrayOf component _ := (steady.arrayOf component).meets
  newArray component _ _ := (steady.arrays component _ _).meets
  addFunction body _ := Stays.meets (steady.addFunction _ body)
  logEntry entry _ := Stays.meets (steady.logEntry _ entry)
  storeElement index _ _ _ := (steady.storeElement _ index _).meets
  invokeVirtual name _ _ _ := (steady.stays_invokeVirtual runs _ name _).meets
  construct _ _ _ := (steady.stays_construct runs _ _ rfl).meets
  call proxy site _ := (steady.stays_call runs proxy site).meets
  getField proxy name _ := (proxy.stays_getField steady.wraps name).meets
  setField proxy name value _ := (steady.setField proxy name value).meets
  superView id _ := Stays.meets (steady.superView id)
  newInstance handle args _ := (steady.stays_newInstance runs handle args).meets
  setOverrides id overrides _ := (steady.setOverrides id overrides).meets

theorem stays_code (frame : Frame) (c : Code)
    (writes : c.writes = true → Eval.Writes (fun _ => True) R (fun _ _ => True)) :
    (Eval.code run frame c).Stays R w :=
  ((steady.steps runs).meets_code c writes trivial (fun _ _ => trivial)
    ⟨fun _ => trivial, fun _ _ => trivial⟩).state.2

theorem stays_script (frame : Eval.ScriptFrame) (c : ScriptCode) :
    (Eval.script run frame c).Stays R w :=
  ((steady.steps runs).meets_script c trivial).state.2

omit runs

/-- The engine, if native code may write fields. -/
theorem stays_engine (writes : Eval.Writes (fun _ => True) R (fun _ _ => True)) (depth : Nat) :
    (Eval.engine depth).Stays R := by
  induction depth with
  | zero => exact ⟨fun _ _ _ => .throw _, fun _ _ _ _ => .throw _⟩
  | succ depth ih =>
    refine ⟨fun body frame _ => steady.stays_code ih frame body fun _ => writes, ?_⟩
    intro id this args w
    refine .get ?_
    split
    · exact steady.stays_script ih _ _
    · exact .pure _

end Steady

/-- A dispatcher and its object come together where a relation allows all that is done for it. -/
theorem ClassHandle.stays_constructBound [IsPreorder World R] (runs : run.Stays R)
    (emit : ∀ (w : World) event, R w { w with events := w.events ++ [event] })
    (wraps : Marshal.WrapsStay R)
    (prepareNew : ∀ (handle : ClassHandle) args {w}, (handle.prepare args).Stays R w)
    (newObject : ∀ (w : World) cls handler, R w { w with
      heap := (w.heap.alloc ⟨cls, .fields (w.registry.instanceDefaults cls), handler⟩).2 })
    (addDispatcher : ∀ (w : World) overrides,
      R w { w with dispatchers := w.dispatchers ++ [Dispatcher.mk overrides none] })
    (bind : ∀ (w : World) index id, R w { w with
      dispatchers := w.dispatchers.modify index (fun d => { d with handle := some id }) })
    (handle : ClassHandle) (overrides : Overrides) (args : List ScriptValue) :
    (handle.constructBound run overrides args).Stays R w := by
  refine Stays.bind (.modify (emit w _)) fun _ w₁ _ => .get (.set (addDispatcher w₁ overrides) ?_)
  rw [construct_eq]
  refine Stays.bind ?_ fun object w₂ _ => ?_
  · refine (prepareNew handle args).bind fun p w₃ _ => .get (Stays.mapError ?_ _)
    exact Invoke.stays_construct runs emit p.1 p.2 fun cls => newObject w₃ cls _
  · refine Stays.bind (wraps object w₂) fun id w₃ _ => ?_
    exact Stays.bind (.modify (bind w₃ _ id)) fun _ _ _ => .pure _

end Interop
