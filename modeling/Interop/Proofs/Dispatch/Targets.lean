import Interop.Proofs.World.Guards

/-!
Where a virtual call ends: in the fixed answer of an object's identity, in a script function, or in
a native body. The native body depends on the signature of the method and on the object only, but
whether the call gets as far as that is asked of the method that was resolved: a final one passes by
the overrides, and one of the root class is answered by identity. So two methods of one signature,
seen through two views of one object, end in the same place exactly if they agree on this.
-/
namespace Interop

variable {w : World} {object : ObjectRef} {m m' : Method} {args : List Value}
  {dispatcher : DispatcherId}

inductive Target where
  | identity (answer : Value)
  | override (dispatcher : DispatcherId) (function : FunctionId)
  | native (implementation : Method)

/-- The method whose body runs for `m` on an object of a class. -/
def Registry.nativeMethod (r : Registry) (cls : TypeId) (m : Method) : Method :=
  (r.implementation? cls m).getD m

namespace World

/-- The handler that a virtual call of an instance method meets. -/
def handlerOf (w : World) (object : ObjectRef) (m : Method) : Option Handler :=
  if m.isFinal then none else w.heap.handler? object

/-- The overrides of a dispatcher at this moment. -/
def overrides (w : World) (dispatcher : DispatcherId) : Overrides :=
  ((w.dispatcher? dispatcher).map Dispatcher.overrides).getD []

/-- What a virtual call of an instance method goes to. -/
def target (w : World) (object : ObjectRef) (m : Method) (args : List Value) : Target :=
  match w.handlerOf object m with
  | some (.overrides dispatcher) =>
    match Invoke.identityAnswer? w dispatcher object m args with
    | some answer => .identity answer
    | none =>
      match (w.overrides dispatcher).lookup m.name with
      | some function => .override dispatcher function
      | none => .native (w.registry.nativeMethod object.cls m)
  | _ => .native (w.registry.nativeMethod object.cls m)

end World

/-- Runs a native body behind a handler, which notes the call or stands in for a missing body. -/
def Invoke.runBehind (handler : Option Handler) (m : Method) (body : Task NativeError Value) :
    Task NativeError Value :=
  match handler with
  | none => body
  | some .logging => do
    Task.logEntry (.handler ((← get).registry.describeMethod m))
    body
  | some (.overrides _) => withAbstractDefault m body

/-- Runs what the call of `m` goes to. -/
def Target.run (run : Runner) (m : Method) (object : ObjectRef) (args : List Value) :
    Target → Task NativeError Value
  | identity answer => return answer
  | override dispatcher function => do
    Task.emit (Invoke.overrideEvent m)
    Invoke.callOverride run dispatcher object m function args
  | native implementation => do
    Invoke.runBehind ((← get).handlerOf object m) m
      (Invoke.runMethod run implementation (some object) args)

theorem Target.run_native (run : Runner) (m implementation : Method) (object : ObjectRef)
    (args : List Value) (w : World) :
    (Target.native implementation).run run m object args w =
      Invoke.runBehind (w.handlerOf object m) m
        (Invoke.runMethod run implementation (some object) args) w :=
  Task.get_bind _ w

namespace Invoke

variable (run : Runner)

theorem invokeDirect_eq (m : Method) (object : ObjectRef) (args : List Value) (w : World) :
    invokeDirect run m object args w =
      runMethod run (w.registry.nativeMethod object.cls m) (some object) args w :=
  Task.get_bind _ w

/-- A virtual call on an object with overrides, from the world in which it is made. -/
theorem invokeOverridden_eq (dispatcher : DispatcherId) (object : ObjectRef) (m : Method)
    (args : List Value) (w : World) :
    invokeOverridden run dispatcher object m args w =
      (match identityAnswer? w dispatcher object m args with
        | some answer => return answer
        | none =>
          match (w.overrides dispatcher).lookup m.name with
          | some function => do
            Task.emit (overrideEvent m)
            callOverride run dispatcher object m function args
          | none => withAbstractDefault m (invokeDirect run m object args) :
        Task NativeError Value) w :=
  Task.get_bind _ w

theorem invokeOverridden_eq_target (met : w.handlerOf object m = some (.overrides dispatcher)) :
    invokeOverridden run dispatcher object m args w =
      (w.target object m args).run run m object args w := by
  rw [invokeOverridden_eq, World.target, met]
  dsimp only
  cases identityAnswer? w dispatcher object m args with
  | some answer => rfl
  | none =>
    dsimp only
    cases (w.overrides dispatcher).lookup m.name with
    | some function => rfl
    | none =>
      dsimp only
      rw [Target.run_native, met]
      exact withAbstractDefault_congr (invokeDirect_eq run m object args w) m

theorem deliver_eq_target (onInstance : m.isStatic = false) (w : World) (object : ObjectRef)
    (args : List Value) :
    deliver run true m (some object) args w =
      (w.target object m args).run run m object args w := by
  have handlers : (if !m.isFinal then w.heap.handler? object else none) = w.handlerOf object m := by
    cases final : m.isFinal <;> simp [World.handlerOf, final]
  simp only [deliver, onInstance, Bool.false_eq_true, if_false, Task.get_bind, Bool.true_and,
    handlers]
  cases met : w.handlerOf object m with
  | none =>
    rw [World.target, met, Target.run_native, met]
    exact invokeDirect_eq run m object args w
  | some handler =>
    cases handler with
    | logging =>
      rw [World.target, met, Target.run_native, met]
      simp only [runBehind, Task.get_bind]
      apply Task.bind_congr_after
      intro _ w' logged
      have same : w'.registry = w.registry := by
        cases logged
        rfl
      rw [invokeDirect_eq, same]
    | overrides dispatcher => exact invokeOverridden_eq_target run met

/-- A call that passes the checks runs its target. -/
theorem invoke_eq_target (onInstance : m.isStatic = false)
    (guarded : Guarded w.registry m (some object) args) :
    invoke run m (some object) args w = (w.target object m args).run run m object args w :=
  (dispatch_of_guarded run true guarded).trans (deliver_eq_target run onInstance w object args)

end Invoke

theorem accepted_of_checkEach {r : Registry} {member : String} {index : Nat} {params : List TypeId}
    (passed : r.checkEach member index params args = .ok ())
    (length : params.length = args.length) :
    List.Forall₂ (fun param arg => r.accepts param arg = true) params args := by
  induction params generalizing index args with
  | nil =>
    cases args with
    | nil => exact .nil
    | cons arg rest => simp at length
  | cons param params ih =>
    cases args with
    | nil => simp at length
    | cons arg rest =>
      unfold Registry.checkEach at passed
      split at passed
      · next accepted => exact .cons accepted (ih passed (by simpa using length))
      · cases passed

theorem checkArguments_ok_iff {r : Registry} {params : List TypeId} {member : String} :
    r.checkArguments params args member = .ok () ↔
      List.Forall₂ (fun param arg => r.accepts param arg = true) params args := by
  constructor
  · intro passed
    unfold Registry.checkArguments at passed
    split at passed
    · next length => exact accepted_of_checkEach passed length
    · cases passed
  · exact Marshal.checkArguments_ok member

/-- Two instance methods of one signature, declared by types that objects of a class belong to,
where the class has an implementation of it. -/
structure Redeclared (r : Registry) (cls : TypeId) (m m' : Method) : Prop where
  signature : m.sameSignature m' = true
  onInstance : m.isStatic = false ∧ m'.isStatic = false
  declaring : r.isAssignable cls m.declaring = true ∧ r.isAssignable cls m'.declaring = true
  implemented : r.hasImplementation cls m = true

namespace Redeclared

variable {r : Registry} {cls : TypeId}

instance : Decidable (Redeclared r cls m m') :=
  decidable_of_iff (m.sameSignature m' = true ∧ (m.isStatic = false ∧ m'.isStatic = false) ∧
      (r.isAssignable cls m.declaring = true ∧ r.isAssignable cls m'.declaring = true) ∧
      r.hasImplementation cls m = true)
    ⟨fun ⟨signature, onInstance, declaring, implemented⟩ =>
        ⟨signature, onInstance, declaring, implemented⟩,
      fun redeclared => ⟨redeclared.signature, redeclared.onInstance, redeclared.declaring,
        redeclared.implemented⟩⟩

theorem name_params (redeclared : Redeclared r cls m m') :
    m.name = m'.name ∧ m.params = m'.params := by
  simpa [Method.sameSignature] using redeclared.signature

theorem guarded_iff (redeclared : Redeclared r object.cls m m') :
    Guarded r m (some object) args ↔ Guarded r m' (some object) args := by
  have params := redeclared.name_params.2
  have checked : r.checkArguments m.params args (r.describeMethod m) = .ok () ↔
      r.checkArguments m'.params args (r.describeMethod m') = .ok () := by
    rw [checkArguments_ok_iff, checkArguments_ok_iff, params]
  constructor
  · intro guarded
    exact ⟨checked.mp guarded.arguments, fun _ => ⟨object, rfl, redeclared.declaring.2⟩⟩
  · intro guarded
    exact ⟨checked.mpr guarded.arguments, fun _ => ⟨object, rfl, redeclared.declaring.1⟩⟩

theorem implementation?_eq (redeclared : Redeclared r cls m m') :
    r.implementation? cls m = r.implementation? cls m' := by
  obtain ⟨name, params⟩ := redeclared.name_params
  simp only [Registry.implementation?, Method.sameSignature, name, params]

/-- One body serves both. -/
theorem nativeMethod_eq (redeclared : Redeclared r cls m m') :
    r.nativeMethod cls m = r.nativeMethod cls m' := by
  obtain ⟨found, there⟩ := Option.isSome_iff_exists.mp redeclared.implemented
  simp only [Registry.nativeMethod, ← redeclared.implementation?_eq, there, Option.getD_some]

end Redeclared

/-- The arguments do not fit, and nothing has happened. -/
theorem Invoke.invoke_of_unguarded (run : Runner)
    (below : w.registry.isAssignable object.cls m.declaring = true)
    (unguarded : ¬Guarded w.registry m (some object) args) :
    ∃ e, invoke run m (some object) args w = .error e w := by
  cases checked : w.registry.checkArguments m.params args (w.registry.describeMethod m) with
  | ok _ => exact absurd ⟨checked, fun _ => ⟨object, rfl, below⟩⟩ unguarded
  | error e =>
    refine ⟨e, ?_⟩
    change (Task.ofExcept (w.registry.checkArguments _ _ _) >>= _) w = _
    rw [checked]
    rfl

/-- The kinds of targets. -/
inductive Route where
  | identity
  | override
  | native
  deriving DecidableEq

def Target.route : Target → Route
  | identity _ => .identity
  | override _ _ => .override
  | native _ => .native

namespace World

/-- The route of a virtual call. It is taken for what the resolved method is, whatever the object's
class makes of the signature. -/
def route (w : World) (object : ObjectRef) (m : Method) (args : List Value) : Route :=
  match w.handlerOf object m with
  | some (.overrides dispatcher) =>
    if (Invoke.identityAnswer? w dispatcher object m args).isSome then .identity
    else if ((w.overrides dispatcher).lookup m.name).isSome then .override
    else .native
  | _ => .native

theorem route_target (w : World) (object : ObjectRef) (m : Method) (args : List Value) :
    (w.target object m args).route = w.route object m args := by
  unfold target route
  split
  · next dispatcher met =>
    cases Invoke.identityAnswer? w dispatcher object m args with
    | some answer => rfl
    | none => cases (w.overrides dispatcher).lookup m.name <;> rfl
  · rfl

/-- What the route of a call leads to. -/
theorem target_of_route (w : World) (object : ObjectRef) (m : Method) (args : List Value) :
    match w.route object m args with
    | .identity => ∃ dispatcher answer, w.heap.dispatcher? object = some dispatcher ∧
        Invoke.identityAnswer? w dispatcher object m args = some answer ∧
        w.target object m args = .identity answer
    | .override => ∃ dispatcher function, w.heap.dispatcher? object = some dispatcher ∧
        (w.overrides dispatcher).lookup m.name = some function ∧
        w.target object m args = .override dispatcher function
    | .native => w.target object m args = .native (w.registry.nativeMethod object.cls m) := by
  cases met : w.handlerOf object m with
  | none => simp [route, target, met]
  | some handler =>
    cases handler with
    | logging => simp [route, target, met]
    | overrides dispatcher =>
      have found : w.heap.dispatcher? object = some dispatcher := by
        unfold handlerOf at met
        split at met
        · cases met
        · simp [Heap.dispatcher?, met]
      cases answered : Invoke.identityAnswer? w dispatcher object m args with
      | some answer => simp [route, target, met, answered, found]
      | none =>
        cases there : (w.overrides dispatcher).lookup m.name with
        | some function => simp [route, target, met, answered, there, found]
        | none => simp [route, target, met, answered, there]

end World

namespace Invoke

/-- The answer of identity depends on the name, and on whether the root class declares the
method. -/
theorem identityAnswer?_congr (name : m.name = m'.name)
    (root : m.declaring = .object ↔ m'.declaring = .object) :
    identityAnswer? w dispatcher object m args = identityAnswer? w dispatcher object m' args := by
  unfold identityAnswer?
  by_cases declared : m'.declaring = .object
  · rw [if_neg (not_not_intro (root.mpr declared)), if_neg (not_not_intro declared), name]
  · rw [if_pos (fun own => declared (root.mp own)), if_pos declared]

theorem declaring_of_identityAnswer {answer : Value}
    (given : identityAnswer? w dispatcher object m args = some answer) :
    m.declaring = .object := by
  by_contra other
  unfold identityAnswer? at given
  rw [if_pos other] at given
  cases given

end Invoke

namespace Redeclared

/-- Methods of one signature that take the same route end in the same target. -/
theorem target_eq_iff (redeclared : Redeclared w.registry object.cls m m') :
    w.target object m args = w.target object m' args ↔
      w.route object m args = w.route object m' args := by
  constructor
  · intro same
    rw [← World.route_target, same, World.route_target]
  · intro same
    have name := redeclared.name_params.1
    have first := w.target_of_route object m args
    have second := w.target_of_route object m' args
    rw [same] at first
    cases route : w.route object m' args with
    | identity =>
      simp only [route] at first second
      obtain ⟨dispatcher, answer, found, given, target⟩ := first
      obtain ⟨dispatcher', answer', found', given', target'⟩ := second
      cases found.symm.trans found'
      have root := Invoke.declaring_of_identityAnswer given
      have root' := Invoke.declaring_of_identityAnswer given'
      rw [Invoke.identityAnswer?_congr name (by rw [root, root']), given'] at given
      rw [target, target', Option.some.inj given]
    | override =>
      simp only [route] at first second
      obtain ⟨dispatcher, function, found, given, target⟩ := first
      obtain ⟨dispatcher', function', found', given', target'⟩ := second
      cases found.symm.trans found'
      rw [name, given'] at given
      rw [target, target', Option.some.inj given]
    | native =>
      simp only [route] at first second
      rw [first, second, redeclared.nativeMethod_eq]

/-- The routes are the same where both methods or neither are final, and both or neither of the root
class. -/
theorem route_eq (redeclared : Redeclared w.registry object.cls m m')
    (finality : m.isFinal = m'.isFinal) (root : m.declaring = .object ↔ m'.declaring = .object) :
    w.route object m args = w.route object m' args := by
  have name := redeclared.name_params.1
  simp only [World.route, World.handlerOf, finality, name, Invoke.identityAnswer?_congr name root]

end Redeclared

theorem World.route_of_no_dispatcher (absent : w.heap.dispatcher? object = none) (m : Method)
    (args : List Value) : w.route object m args = .native := by
  unfold World.route
  split
  · next dispatcher met =>
    unfold World.handlerOf at met
    split at met
    · cases met
    · simp [Heap.dispatcher?, met] at absent
  · rfl

/-- Two methods of one signature on one object are refused for the same arguments. Otherwise each
call runs its target, and the targets are the same exactly if the routes are: always on an object
without overrides, and on one with overrides if both methods or neither are final and both or
neither are declared by the root class. -/
theorem target_of_redeclared (redeclared : Redeclared w.registry object.cls m m')
    (args : List Value) :
    (Guarded w.registry m (some object) args ↔ Guarded w.registry m' (some object) args) ∧
    (¬Guarded w.registry m (some object) args → ∀ run, ∃ e e',
      Invoke.invoke run m (some object) args w = .error e w ∧
        Invoke.invoke run m' (some object) args w = .error e' w) ∧
    (Guarded w.registry m (some object) args → ∀ run,
      Invoke.invoke run m (some object) args w =
          (w.target object m args).run run m object args w ∧
        Invoke.invoke run m' (some object) args w =
          (w.target object m' args).run run m' object args w) ∧
    (w.target object m args = w.target object m' args ↔
      w.route object m args = w.route object m' args) ∧
    (w.heap.dispatcher? object = none ∨
        (m.isFinal = m'.isFinal ∧ (m.declaring = .object ↔ m'.declaring = .object)) →
      w.target object m args = w.target object m' args) := by
  have both : Guarded w.registry m (some object) args ↔ Guarded w.registry m' (some object) args :=
    redeclared.guarded_iff
  refine ⟨both, ?_, ?_, redeclared.target_eq_iff, ?_⟩
  · intro unguarded run
    obtain ⟨e, failed⟩ := Invoke.invoke_of_unguarded run redeclared.declaring.1 unguarded
    obtain ⟨e', failed'⟩ := Invoke.invoke_of_unguarded run redeclared.declaring.2
      (fun guarded => unguarded (both.mpr guarded))
    exact ⟨e, e', failed, failed'⟩
  · intro guarded run
    exact ⟨Invoke.invoke_eq_target run redeclared.onInstance.1 guarded,
      Invoke.invoke_eq_target run redeclared.onInstance.2 (both.mp guarded)⟩
  · rintro (absent | ⟨finality, root⟩)
    · rw [redeclared.target_eq_iff, World.route_of_no_dispatcher absent,
        World.route_of_no_dispatcher absent]
    · exact redeclared.target_eq_iff.mpr (redeclared.route_eq finality root)

/-- A class whose methods say something. -/
def voiceDraft : TypeDraft where
  name := "app.Voice"
  isInterface := false
  modifiers := .plain
  superclass := none
  interfaces := []
  methods := [
    ⟨"speak", [], some .string, .plain, false, some (.code (.literal (.value (.string "voice"))))⟩,
    ⟨"greet", [], some .string, .plain, false, some (.code (.literal (.value (.string "hello"))))⟩]
  constructors := [⟨[], .plain, false, none⟩]
  fields := []

/-- A subclass that closes one method, opens another, and reads a level that nothing implements. -/
def choirDraft : TypeDraft where
  name := "app.Choir"
  isInterface := false
  modifiers := .plain
  superclass := some ⟨20⟩
  interfaces := []
  methods := [
    ⟨"speak", [], some .string, Modifiers.plain.add .final, false,
      some (.code (.literal (.value (.string "choir"))))⟩,
    ⟨"greet", [], some .string, .plain, false, some (.code (.callThis "speak" []))⟩,
    ⟨"toString", [], some .string, .plain, false,
      some (.code (.literal (.value (.string "a choir"))))⟩,
    ⟨"level", [], some (.primitive .int), .plain, false, none⟩,
    ⟨"label", [], some .string, .plain, false, some (.code (.callThis "level" []))⟩]
  constructors := [⟨[], .plain, false, none⟩]
  fields := []

/-- The world with one choir, whose script overrides are for `speak` and `greet`. -/
def choirWorld : World :=
  (Action.newInstanceWithOverrides ⟨⟨22⟩, ⟨21⟩, "app.Choir", .subclass⟩
    (.dict [("speak", .function ⟨0⟩), ("greet", .function ⟨0⟩)]) []).apply
    ((Action.addFunction (.literal (.value (.string "script")))).apply
      ((Action.extend "app.Choir").apply
        ((Action.define choirDraft).apply
          ((Action.define voiceDraft).apply (.initial .default .always)))))

/-- The choir in its world. -/
def choir : ObjectRef := ⟨0, ⟨22⟩⟩

/-- A draft whose code mentions no object can be defined in any world. -/
theorem Action.allowed_define {draft : TypeDraft} (plain : ∀ v ∈ draft.values, v.object? = none) :
    (Action.define draft).Allowed w := by
  intro v member
  have none := plain v member
  cases v with
  | object ref => cases none
  | _ => trivial

theorem reachable_choirWorld : Reachable choirWorld := by
  have voice := Reachable.step (.initial .default .always) (.define voiceDraft)
    (Action.allowed_define (by decide))
  have classes := voice.step (.define choirDraft) (Action.allowed_define (by decide))
  exact .step (.step (.step classes (.extend _) trivial) (.addFunction _) trivial)
    (.newInstanceWithOverrides _ _ _) trivial

/-- Both declarations of `greet` are open, so through either view the call goes to the script. -/
theorem target_greet_choirWorld :
    ∃ m ∈ choirWorld.registry.allMethods ⟨20⟩, ∃ m' ∈ choirWorld.registry.allMethods ⟨21⟩,
      m.name = "greet" ∧ Redeclared choirWorld.registry choir.cls m m' ∧
      choirWorld.route choir m' [] = .override ∧
      choirWorld.target choir m [] = choirWorld.target choir m' [] := by
  obtain ⟨m, listed, m', listed', name, redeclared, finality, root, route⟩ :
      ∃ m ∈ choirWorld.registry.allMethods ⟨20⟩, ∃ m' ∈ choirWorld.registry.allMethods ⟨21⟩,
        m.name = "greet" ∧ Redeclared choirWorld.registry choir.cls m m' ∧
        m.isFinal = m'.isFinal ∧ (m.declaring = .object ↔ m'.declaring = .object) ∧
        choirWorld.route choir m' [] = .override := by
    decide +kernel
  refine ⟨m, listed, m', listed', name, redeclared, route, ?_⟩
  exact (target_of_redeclared redeclared []).2.2.2.2 (Or.inr ⟨finality, root⟩)

/-- Seen as a voice the choir speaks by script, although a choir's `speak` is final; and its own
`toString` gives way to the answer of its identity where it is called as that of the root class. -/
theorem target_depends_on_view : Reachable choirWorld ∧
    (∃ m ∈ choirWorld.registry.allMethods ⟨20⟩, ∃ m' ∈ choirWorld.registry.allMethods ⟨21⟩,
      m.name = "speak" ∧ Redeclared choirWorld.registry choir.cls m m' ∧
      choirWorld.route choir m [] = .override ∧ choirWorld.route choir m' [] = .native ∧
      choirWorld.target choir m [] ≠ choirWorld.target choir m' []) ∧
    ∃ m ∈ choirWorld.registry.allMethods .object, ∃ m' ∈ choirWorld.registry.allMethods ⟨21⟩,
      m.name = "toString" ∧ Redeclared choirWorld.registry choir.cls m m' ∧
      choirWorld.route choir m [] = .identity ∧ choirWorld.route choir m' [] = .native ∧
      choirWorld.target choir m [] ≠ choirWorld.target choir m' [] := by
  have parted : ∀ {m m' : Method}, Redeclared choirWorld.registry choir.cls m m' →
      choirWorld.route choir m [] ≠ choirWorld.route choir m' [] →
      choirWorld.target choir m [] ≠ choirWorld.target choir m' [] :=
    fun redeclared apart same => apart (redeclared.target_eq_iff.mp same)
  obtain ⟨m, listed, m', listed', name, redeclared, route, route'⟩ :
      ∃ m ∈ choirWorld.registry.allMethods ⟨20⟩, ∃ m' ∈ choirWorld.registry.allMethods ⟨21⟩,
        m.name = "speak" ∧ Redeclared choirWorld.registry choir.cls m m' ∧
        choirWorld.route choir m [] = .override ∧ choirWorld.route choir m' [] = .native := by
    decide +kernel
  obtain ⟨n, found, n', found', text, again, answered, passed⟩ :
      ∃ m ∈ choirWorld.registry.allMethods .object, ∃ m' ∈ choirWorld.registry.allMethods ⟨21⟩,
        m.name = "toString" ∧ Redeclared choirWorld.registry choir.cls m m' ∧
        choirWorld.route choir m [] = .identity ∧ choirWorld.route choir m' [] = .native := by
    decide +kernel
  refine ⟨reachable_choirWorld,
    ⟨m, listed, m', listed', name, redeclared, route, route', parted redeclared ?_⟩,
    ⟨n, found, n', found', text, again, answered, passed, parted again ?_⟩⟩
  · simp [route, route']
  · simp [answered, passed]

end Interop
