import Interop.Proofs.Dispatch.Targets

/-!
Calls that are left to native code. What the native body gives is handed on as it is, value or
error, with one exception: the error of a method without a body becomes a default wherever the
method that was called can answer with one. The error does not say which method had no body. It may
be another one, which an implemented body has called and not been able to run, and then the default
hides the failure of that body.
-/
namespace Interop.Invoke

variable {w w' : World} {run : Runner} {object : ObjectRef} {m : Method} {args : List Value}
  {dispatcher : DispatcherId} {name : String}

/-- What a method can answer with by default: nothing, or null for a reference. -/
def defaultFor? (r : Registry) (m : Method) : Option Value :=
  if m.returns = .void then some .void
  else if (r.get? m.returns).any TypeInfo.isReference then some .null
  else none

/-- What a caller of `m` is given for an outcome of native code. -/
def handedOn (m : Method) : Task.Outcome NativeError Value → Task.Outcome NativeError Value
  | .error (.abstractMethod name) w =>
    match defaultFor? w.registry m with
    | some value => .ok value w
    | none => .error (.abstractMethod name) w
  | outcome => outcome

theorem withAbstractDefault_eq (m : Method) (task : Task NativeError Value) (w : World) :
    withAbstractDefault m task w = handedOn m (task w) := by
  unfold withAbstractDefault
  cases result : task w with
  | ok value w' =>
    have outcome : (Task.outcome task : Task NativeError _) w = .ok (.ok value) w' := by
      simp [Task.outcome, result]
    rw [Task.bind_ok outcome]
    rfl
  | error e w' =>
    have outcome : (Task.outcome task : Task NativeError _) w = .ok (.error e) w' := by
      simp [Task.outcome, result]
    rw [Task.bind_ok outcome, Task.get_bind]
    cases e with
    | abstractMethod name =>
      by_cases void : m.returns = .void
      · simp [abstractDefault, handedOn, defaultFor?, void, Task.ofExcept]
      · by_cases reference : (w'.registry.get? m.returns).any TypeInfo.isReference
        · simp [abstractDefault, handedOn, defaultFor?, void, reference, Task.ofExcept]
        · simp [abstractDefault, handedOn, defaultFor?, void, reference, Task.ofExcept]
    | _ => rfl

/-- Only the error of a method without a body is not handed on as it is. -/
theorem handedOn_eq_self_iff (m : Method) (outcome : Task.Outcome NativeError Value) :
    handedOn m outcome = outcome ↔
      ∀ name w', outcome = .error (.abstractMethod name) w' →
        defaultFor? w'.registry m = none := by
  cases outcome with
  | ok value w' => simp [handedOn]
  | error e w' =>
    cases e with
    | abstractMethod name =>
      cases default : defaultFor? w'.registry m <;> simp [handedOn, default]
    | _ => simp [handedOn]

theorem runMethod_of_body {receiver : Option ObjectRef} {body : Body} (has : m.body = some body) :
    runMethod run m receiver args w = (do
      let result ← runBody run body ⟨receiver, args⟩
      return if m.returns = .void then .void else result : Task NativeError Value) w := by
  simp only [runMethod, has]

theorem runMethod_of_no_body {receiver : Option ObjectRef} (lacks : m.body = none) :
    runMethod run m receiver args w =
      .error (.abstractMethod (w.registry.describeMethod m)) w := by
  simp only [runMethod, lacks, Task.get_bind]
  rfl

/-- A method fails for want of a body if it has none, or if its body has failed so. -/
theorem runMethod_abstract_iff {receiver : Option ObjectRef} :
    runMethod run m receiver args w = .error (.abstractMethod name) w' ↔
      (∃ body, m.body = some body ∧
        runBody run body ⟨receiver, args⟩ w = .error (.abstractMethod name) w') ∨
      (m.body = none ∧ name = w.registry.describeMethod m ∧ w' = w) := by
  cases has : m.body with
  | none => simp [runMethod_of_no_body has, eq_comm]
  | some body =>
    rw [runMethod_of_body has]
    change EStateM.bind _ _ w = _ ↔ _
    unfold EStateM.bind
    cases result : runBody run body ⟨receiver, args⟩ w with
    | ok value w₁ => simp [result, pure, EStateM.pure]
    | error e w₁ => simp [result]

/-- An implementation has a body. -/
theorem body_of_hasImplementation {r : Registry} {cls : TypeId}
    (implemented : r.hasImplementation cls m = true) :
    (r.nativeMethod cls m).body.isSome := by
  obtain ⟨found, there⟩ := Option.isSome_iff_exists.mp implemented
  obtain ⟨t, _, chosen⟩ := List.exists_of_findSome?_eq_some there
  have fits := List.find?_some chosen
  simp only [Bool.and_eq_true] at fits
  simpa [Registry.nativeMethod, there] using fits.1.2

theorem nativeMethod_of_not_hasImplementation {r : Registry} {cls : TypeId}
    (absent : r.hasImplementation cls m = false) : r.nativeMethod cls m = m := by
  have none : r.implementation? cls m = none := by simpa [Registry.hasImplementation] using absent
  simp [Registry.nativeMethod, none]

/-- The body of an implementation ends in the error that `m` has a default for. -/
def Masks (run : Runner) (m : Method) (body : Body) (object : ObjectRef) (args : List Value)
    (w : World) : Prop :=
  ∃ name w', runBody run body ⟨some object, args⟩ w = .error (.abstractMethod name) w' ∧
    defaultFor? w'.registry m ≠ none

theorem handedOn_invokeDirect_iff {body : Body}
    (has : (w.registry.nativeMethod object.cls m).body = some body) :
    handedOn m (invokeDirect run m object args w) = invokeDirect run m object args w ↔
      ¬Masks run m body object args w := by
  rw [handedOn_eq_self_iff, invokeDirect_eq]
  simp [Masks, runMethod_abstract_iff, has]

/-- A forced call that passes the checks is a direct one. -/
theorem invokeForced_of_guarded (onInstance : m.isStatic = false)
    (guarded : Guarded w.registry m (some object) args) :
    invokeForced run m (some object) args w = invokeDirect run m object args w := by
  have delivered : deliver run false m (some object) args w =
      invokeDirect run m object args w := by
    unfold deliver
    rw [if_neg (by simp [onInstance])]
    exact Task.get_bind _ w
  exact (dispatch_of_guarded run false guarded).trans delivered

/-- The world in which a super call runs its method. -/
def noteSuper (m : Method) (w : World) : World := { w with events := w.events ++ [superEvent m] }

theorem invokeSuper_eq (run : Runner) (m : Method) (receiver : Option ObjectRef)
    (args : List Value) (w : World) :
    invokeSuper run m receiver args w =
      handedOn m (invokeForced run m receiver args (noteSuper m w)) := by
  have noted : (Task.emit (superEvent m) : Task NativeError Unit) w = .ok () (noteSuper m w) := rfl
  rw [invokeSuper, Task.bind_ok noted, withAbstractDefault_eq]

/-- A call that a dispatcher leaves to native code is handed the outcome of the direct call, and a
super call that of the forced call. For a method that is implemented this is the very outcome unless
the body has failed for want of another body and the method has a default, and for one that is not
it is the default itself. -/
theorem outcome_of_forwarding (run : Runner) (dispatcher : DispatcherId) (object : ObjectRef)
    (m : Method) (args : List Value) (w : World) :
    (identityAnswer? w dispatcher object m args = none →
      (w.overrides dispatcher).lookup m.name = none →
      invokeOverridden run dispatcher object m args w =
        handedOn m (invokeDirect run m object args w)) ∧
    (∀ receiver, invokeSuper run m receiver args w =
      handedOn m (invokeForced run m receiver args (noteSuper m w))) ∧
    (w.registry.hasImplementation object.cls m = true →
      ∃ body, (w.registry.nativeMethod object.cls m).body = some body ∧
        (handedOn m (invokeDirect run m object args w) = invokeDirect run m object args w ↔
          ¬Masks run m body object args w) ∧
        (m.isStatic = false → Guarded w.registry m (some object) args →
          (handedOn m (invokeForced run m (some object) args (noteSuper m w)) =
              invokeForced run m (some object) args (noteSuper m w) ↔
            ¬Masks run m body object args (noteSuper m w)))) ∧
    (w.registry.hasImplementation object.cls m = false → m.body = none →
      invokeDirect run m object args w =
        .error (.abstractMethod (w.registry.describeMethod m)) w) := by
  refine ⟨?_, fun receiver => invokeSuper_eq run m receiver args w, ?_, ?_⟩
  · intro unanswered absent
    rw [invokeOverridden_eq, unanswered]
    dsimp only
    rw [absent]
    exact withAbstractDefault_eq m (invokeDirect run m object args) w
  · intro implemented
    obtain ⟨body, has⟩ := Option.isSome_iff_exists.mp (body_of_hasImplementation implemented)
    refine ⟨body, has, handedOn_invokeDirect_iff has, ?_⟩
    intro onInstance guarded
    rw [invokeForced_of_guarded onInstance (w := noteSuper m w) guarded]
    exact handedOn_invokeDirect_iff (w := noteSuper m w) has
  · intro absent lacks
    rw [invokeDirect_eq, nativeMethod_of_not_hasImplementation absent]
    exact runMethod_of_no_body lacks

/-- The choir's `toString` is not overridden: the call gives what the native body gives. -/
theorem outcome_toString_choirWorld :
    ∃ m ∈ choirWorld.registry.allMethods ⟨21⟩, m.name = "toString" ∧
      choirWorld.registry.hasImplementation choir.cls m = true ∧
      ∃ value w', invokeDirect Eval.run m choir [] choirWorld = .ok value w' ∧
        invokeOverridden Eval.run ⟨0⟩ choir m [] choirWorld = .ok value w' := by
  obtain ⟨m, listed, name, implemented, unanswered, absent, value, w', direct⟩ :
      ∃ m ∈ choirWorld.registry.allMethods ⟨21⟩, m.name = "toString" ∧
        choirWorld.registry.hasImplementation choir.cls m = true ∧
        identityAnswer? choirWorld ⟨0⟩ choir m [] = none ∧
        (choirWorld.overrides ⟨0⟩).lookup m.name = none ∧
        Task.Succeeds (invokeDirect Eval.run m choir []) choirWorld := by
    decide +kernel
  refine ⟨m, listed, name, implemented, value, w', direct, ?_⟩
  rw [(outcome_of_forwarding Eval.run ⟨0⟩ choir m [] choirWorld).1 unanswered absent, direct]
  rfl

/-- The choir's `label` is implemented, and its body fails because nothing implements `level`.
Called past the handler it fails; left to native code by the dispatcher, or called through a super
view, it answers. -/
theorem label_failure_hidden : Reachable choirWorld ∧
    ∃ m ∈ choirWorld.registry.allMethods ⟨21⟩, m.name = "label" ∧
      choirWorld.registry.hasImplementation choir.cls m = true ∧
      identityAnswer? choirWorld ⟨0⟩ choir m [] = none ∧
      (choirWorld.overrides ⟨0⟩).lookup m.name = none ∧
      ¬Task.Succeeds (invokeDirect Eval.run m choir []) choirWorld ∧
      Task.Succeeds (invokeOverridden Eval.run ⟨0⟩ choir m []) choirWorld ∧
      ¬Task.Succeeds (invokeForced Eval.run m (some choir) []) (noteSuper m choirWorld) ∧
      Task.Succeeds (invokeSuper Eval.run m (some choir) []) choirWorld :=
  ⟨reachable_choirWorld, by decide +kernel⟩

end Interop.Invoke
