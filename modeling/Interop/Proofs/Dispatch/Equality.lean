import Interop.Proofs.Dispatch.BoundRuns
import Interop.Proofs.Dispatch.SuperViews
import Interop.Proofs.Overload.Resolution
import Interop.Proofs.Registry.HopMetric
import Interop.Proofs.World.PassedReferences

/-!
Equality of objects. An object with overrides answers `equals` by comparing dispatchers, and every
other object, as well as a super view, by comparing objects. Where a dispatcher comes with its
object the two comparisons are one: whichever way `equals` of the root class is called, and whatever
the overrides are, the answer is whether the argument is the object itself.
-/
namespace Interop

namespace Registry

variable {r : Registry} {cls i : TypeId} {t : TypeInfo} {m : Method}

/-- How the root class compares objects. -/
def rootEquals : Method where
  name := "equals"
  params := [.object]
  returns := .primitive .boolean
  body := some .identityEquals
  declaring := .object
  modifiers := .plain
  variadic := false

/-- In the hierarchy of the class, only the root class declares `equals` of an object. -/
def RootEquals (r : Registry) (cls : TypeId) : Prop :=
  ∀ t ∈ r.searchOrder cls, ∀ m ∈ t.methods, m.name = "equals" → m.params = [.object] →
    t.id = .object

/-- In the hierarchy of the class, only the root class declares a method named `equals`. -/
def SoleEquals (r : Registry) (cls : TypeId) : Prop :=
  ∀ t ∈ r.searchOrder cls, ∀ m ∈ t.methods, m.name = "equals" → t.id = .object

instance : Decidable (RootEquals r cls) :=
  inferInstanceAs (Decidable (∀ t ∈ r.searchOrder cls, ∀ m ∈ t.methods, m.name = "equals" →
    m.params = [.object] → t.id = .object))

instance : Decidable (SoleEquals r cls) :=
  inferInstanceAs (Decidable (∀ t ∈ r.searchOrder cls, ∀ m ∈ t.methods, m.name = "equals" →
    t.id = .object))

theorem SoleEquals.root (sole : r.SoleEquals cls) : r.RootEquals cls :=
  fun t listed m declared name _ => sole t listed m declared name

theorem rootEquals_mem_objectType : rootEquals ∈ objectType.methods := List.mem_cons_self

theorem eq_rootEquals (declared : m ∈ objectType.methods) (name : m.name = "equals") :
    m = rootEquals := by
  simp only [objectType, List.mem_cons, List.not_mem_nil, or_false] at declared
  rcases declared with rfl | rfl | rfl
  · rfl
  · exact absurd name (by decide)
  · exact absurd name (by decide)

/-- A method of the name that only the root class can have declared is the root's. -/
theorem eq_rootEquals_of_listed (settled : r.Settled) (listed : t ∈ r.searchOrder cls)
    (declared : m ∈ t.methods) (isRoot : t.id = .object) (name : m.name = "equals") :
    m = rootEquals := by
  obtain ⟨j, there, _⟩ := (mem_searchOrder settled).mp listed
  have own : j = .object := (settled.coherent.ids there).symm.trans isRoot
  rw [own, settled.coherent.object.1] at there
  exact eq_rootEquals (Option.some.inj there ▸ declared) name

/-- What a type shows of an object of the class is declared in the hierarchy of the class. -/
theorem listed_of_assignable (settled : r.Settled) (assignable : r.isAssignable cls i = true)
    (member : m ∈ r.allMethods i) : ∃ t ∈ r.searchOrder cls, m ∈ t.methods := by
  obtain ⟨t, listed, declared⟩ := mem_allMethods member
  obtain ⟨j, there, n, path⟩ := (mem_searchOrder settled).mp listed
  have above : r.isAssignable cls j = true := by
    rw [isAssignable_iff settled] at assignable ⊢
    exact assignable.trans settled.coherent (below_of_path path)
  obtain ⟨rank, ranked⟩ := settled.ranked
  have up := path_of_method settled.coherent ranked above there declared
  exact ⟨t, (mem_searchOrder settled).mpr ⟨j, there, up⟩, declared⟩

theorem RootEquals.eq_of_mem (root : r.RootEquals cls) (settled : r.Settled)
    (assignable : r.isAssignable cls i = true) (member : m ∈ r.allMethods i)
    (name : m.name = "equals") (params : m.params = [.object]) : m = rootEquals := by
  obtain ⟨t, listed, declared⟩ := listed_of_assignable settled assignable member
  exact eq_rootEquals_of_listed settled listed declared (root t listed m declared name params) name

theorem SoleEquals.eq_of_mem (sole : r.SoleEquals cls) (settled : r.Settled)
    (assignable : r.isAssignable cls i = true) (member : m ∈ r.allMethods i)
    (name : m.name = "equals") : m = rootEquals := by
  obtain ⟨t, listed, declared⟩ := listed_of_assignable settled assignable member
  exact eq_rootEquals_of_listed settled listed declared (sole t listed m declared name) name

/-- Its body is the one that runs. -/
theorem RootEquals.nativeMethod_eq (root : r.RootEquals cls) (settled : r.Settled) :
    r.nativeMethod cls rootEquals = rootEquals := by
  unfold nativeMethod
  cases found : r.implementation? cls rootEquals with
  | none => rfl
  | some m =>
    obtain ⟨t, listed, chosen⟩ := List.exists_of_findSome?_eq_some found
    have declared := List.mem_of_find?_eq_some chosen
    have fits := List.find?_some chosen
    simp only [Bool.and_eq_true] at fits
    obtain ⟨name, params⟩ := Method.sameSignature_iff.mp fits.1.1
    exact eq_rootEquals_of_listed settled listed declared (root t listed m declared name params)
      name

/-- Every type that shows an object of the class has it. -/
theorem RootEquals.mem_allMethods (root : r.RootEquals cls) (settled : r.Settled)
    (assignable : r.isAssignable cls i = true) (below : r.isAssignable i .object = true) :
    rootEquals ∈ r.allMethods i := by
  have object := settled.coherent.object.1
  obtain ⟨rank, ranked⟩ := settled.ranked
  have up := path_of_method settled.coherent ranked below object rootEquals_mem_objectType
  have declared : rootEquals ∈ r.declarations i :=
    mem_declarations.mpr ⟨objectType, (mem_searchOrder settled).mpr ⟨.object, object, up⟩,
      rootEquals_mem_objectType⟩
  obtain ⟨first, among, _, same⟩ := exists_firstDeclaration declared
  obtain ⟨name, params⟩ := Method.sameSignature_iff.mp same
  exact root.eq_of_mem settled assignable among name params ▸ among

/-- Without other methods of the name, overload choice has one candidate. -/
theorem SoleEquals.methodCandidates_eq (sole : r.SoleEquals cls) (settled : r.Settled)
    (assignable : r.isAssignable cls i = true) (below : r.isAssignable i .object = true) :
    Overload.methodCandidates r i "equals" true = [rootEquals] := by
  have all : ∀ m ∈ r.accessible i "equals", m = rootEquals := by
    intro m listed
    obtain ⟨member, name⟩ := mem_accessible.mp listed
    exact sole.eq_of_mem settled assignable (List.mem_filter.mp member).1 name
  have there : rootEquals ∈ r.accessible i "equals" := by
    have member := sole.root.mem_allMethods settled assignable below
    exact mem_accessible.mpr ⟨List.mem_filter.mpr ⟨member, rfl⟩, rfl⟩
  have distinct : Distinct (r.accessible i "equals") := (distinct_methods r i).filter _
  rw [Overload.methodCandidates_instance]
  generalize r.accessible i "equals" = candidates at all there distinct
  match candidates with
  | [] => cases there
  | [only] => rw [all only List.mem_cons_self]
  | first :: second :: rest =>
    have apart := (List.pairwise_cons.mp distinct).1 second List.mem_cons_self
    rw [all first List.mem_cons_self, all second (by simp), Method.sameSignature_self] at apart
    cases apart

end Registry

open Registry (rootEquals)

variable {w : World} {a b : ObjectRef} {run : Runner}

/-- The task succeeds with this value. -/
def Task.Answers {ε α : Type} (task : Task ε α) (w : World) (value : α) : Prop :=
  ∃ w', task w = .ok value w'

theorem World.Sound.assignable_object (sound : w.Sound) (held : w.heap.Holds a) :
    w.registry.isAssignable a.cls .object = true := by
  obtain ⟨t, found, reference⟩ :
      ∃ t, w.registry.get? a.cls = some t ∧ t.isPrimitive = false := by
    rcases sound.cls held with ⟨c, component⟩ | ⟨⟨t, found, isClass⟩, _⟩
    · obtain ⟨t, found, array⟩ := Option.bind_eq_some_iff.mp component
      have kind := TypeInfo.component?_eq.mp array
      exact ⟨t, found, by simp [TypeInfo.isPrimitive, TypeInfo.primitiveKind?, kind]⟩
    · refine ⟨t, found, ?_⟩
      cases kind : t.kind <;>
        simp_all [TypeInfo.isClass, TypeInfo.isPrimitive, TypeInfo.primitiveKind?]
  exact (Registry.isAssignable_iff sound.registry).mpr
    (sound.registry.below_object found reference)

/-- So is every type that an object can be seen under. -/
theorem World.Sound.view_assignable_object {i : TypeId} (sound : w.Sound)
    (held : w.heap.Holds a) (assignable : w.registry.isAssignable a.cls i = true) :
    w.registry.isAssignable i .object = true := by
  by_cases same : a.cls = i
  · exact same ▸ sound.assignable_object held
  · rw [Registry.isAssignable_iff sound.registry] at assignable ⊢
    obtain ⟨_, u, _, _, there, reference⟩ := assignable.reference sound.registry.coherent same
    exact sound.registry.below_object there reference

theorem Heap.Holds.same_eq {heap : Heap} (heldA : heap.Holds a) (heldB : heap.Holds b) :
    b.same a = decide (a = b) := by
  have unique : b.address = a.address ↔ a = b := by
    constructor
    · intro address
      exact heldA.eq_of_address heldB address.symm
    · rintro rfl
      rfl
  rw [ObjectRef.same, Bool.eq_iff_iff, beq_iff_eq, decide_eq_true_eq, unique]

theorem accepts_object (sound : w.Sound) (held : w.heap.Holds b) :
    w.registry.accepts .object (.object b) = true := by
  have below := (Registry.isAssignable_iff sound.registry).mp (sound.assignable_object held)
  exact (Registry.accepts_iff sound.registry).mpr
    ⟨_, sound.registry.coherent.object.1, Or.inr ⟨b.cls, rfl, below⟩⟩

theorem guarded_rootEquals (sound : w.Sound) (heldA : w.heap.Holds a) (heldB : w.heap.Holds b) :
    Guarded w.registry rootEquals (some a) [.object b] where
  arguments := Marshal.checkArguments_ok _ (.cons (accepts_object sound heldB) .nil)
  receiver _ := ⟨a, rfl, sound.assignable_object heldA⟩

namespace Invoke

theorem runMethod_rootEquals (run : Runner) (same : b.same a = decide (a = b)) (w : World) :
    runMethod run rootEquals (some a) [.object b] w = .ok (.boolean (decide (a = b))) w := by
  rw [← same]
  rfl

/-- Comparing dispatchers is comparing objects. -/
theorem identityAnswer?_rootEquals {dispatcher : DispatcherId} (bound : BoundRun w)
    (heldA : w.heap.Holds a) (heldB : w.heap.Holds b)
    (carries : w.heap.handler? a = some (.overrides dispatcher)) :
    identityAnswer? w dispatcher a rootEquals [.object b] =
      some (.boolean (decide (a = b))) := by
  have answer : identityAnswer? w dispatcher a rootEquals [.object b] =
      some (.boolean (w.heap.handler? b == some (.overrides dispatcher))) := rfl
  have same : w.heap.handler? b = some (.overrides dispatcher) ↔ a = b := by
    constructor
    · exact bound.eq_of_dispatcher heldA heldB carries
    · rintro rfl
      exact carries
  rw [answer, Option.some.injEq, Value.boolean.injEq, Bool.eq_iff_iff, beq_iff_eq,
    decide_eq_true_eq, same]

section

variable (bound : BoundRun w) (heldA : w.heap.Holds a) (heldB : w.heap.Holds b)
  (root : w.registry.RootEquals a.cls)
include bound heldA heldB root

theorem answers_invoke (run : Runner) :
    (invoke run rootEquals (some a) [.object b]).Answers w (.boolean (decide (a = b))) := by
  have guarded := guarded_rootEquals bound.sound heldA heldB
  have native := root.nativeMethod_eq bound.sound.registry
  have same := heldA.same_eq heldB
  have isOpen : w.handlerOf a rootEquals = w.heap.handler? a := rfl
  unfold Task.Answers
  rw [invoke_eq_target run rfl guarded, World.target, isOpen]
  -- Without overrides the body of the root class runs, behind a log or not.
  cases met : w.heap.handler? a with
  | none =>
    dsimp only
    rw [native, Target.run_native, isOpen, met]
    exact ⟨w, runMethod_rootEquals run same w⟩
  | some handler =>
    cases handler with
    | logging =>
      dsimp only
      rw [native, Target.run_native, isOpen, met]
      exact ⟨_, runMethod_rootEquals run same _⟩
    | overrides dispatcher =>
      dsimp only
      rw [identityAnswer?_rootEquals bound heldA heldB met]
      exact ⟨w, rfl⟩

theorem answers_invokeDirect (run : Runner) :
    (invokeDirect run rootEquals a [.object b]).Answers w (.boolean (decide (a = b))) := by
  refine ⟨w, ?_⟩
  rw [invokeDirect_eq, root.nativeMethod_eq bound.sound.registry]
  exact runMethod_rootEquals run (heldA.same_eq heldB) w

theorem answers_invokeForced (run : Runner) :
    (invokeForced run rootEquals (some a) [.object b]).Answers w
      (.boolean (decide (a = b))) := by
  have guarded := guarded_rootEquals bound.sound heldA heldB
  unfold Task.Answers
  rw [invokeForced_of_guarded rfl guarded]
  exact answers_invokeDirect bound heldA heldB root run

theorem answers_invokeSuper (run : Runner) :
    (invokeSuper run rootEquals (some a) [.object b]).Answers w
      (.boolean (decide (a = b))) := by
  -- The call is noted first, which is one more move of the run.
  have noted : BoundRun (noteSuper rootEquals w) :=
    .step bound (.note (superEvent rootEquals)) trivial trivial
  obtain ⟨w', answered⟩ := answers_invokeForced noted heldA heldB root run
  refine ⟨w', ?_⟩
  rw [invokeSuper_eq, answered]
  rfl

theorem answers_invokeVirtual (run : Runner)
    (found : w.registry.virtualMethod? a.cls "equals" [.object b] = some rootEquals) :
    (invokeVirtual run a "equals" [.object b]).Answers w (.boolean (decide (a = b))) := by
  obtain ⟨w', answered⟩ := answers_invoke bound heldA heldB root run
  refine ⟨w', ?_⟩
  rw [invokeVirtual, Task.get_bind, found]
  exact answered

end

end Invoke

namespace Proxy

variable {id other : HandleId} {h h' : Handle}

/-- A script's call of `equals` with a handle as its argument. -/
def equalsSite (other : HandleId) : CallSite := ⟨"equals", [.instance other], true⟩

/-- The call comes to the method of the root class with the objects behind the handles. -/
theorem prepare_equals (sound : w.Sound) (live : w.handle? id = some h)
    (live' : w.handle? other = some h')
    (chosen : (Overload.chooseMethod w.registry h.view "equals" [.object h'.target] true
      w.memo).1 = .ok rootEquals) :
    ∃ p w', (Proxy.instance id).prepare (equalsSite other) w = .ok p w' ∧
      p.method = rootEquals ∧ p.receiver = some h.target ∧ p.args = [.object h'.target] ∧
      w'.handle? id = some h ∧ w'.heap = w.heap ∧ w'.registry = w.registry := by
  have behind : List.Forall₂ (fun id object => (w.handle? id).map Handle.target = some object)
      [other] [h'.target] :=
    .cons (by rw [live', Option.map_some]) .nil
  have unwrapped : Marshal.unwrapAll [.instance other] w = .ok [.object h'.target] w :=
    Marshal.unwrapAll_instances behind
  have view : (Proxy.instance id).memberType w = h.view := by simp [memberType, live]
  obtain ⟨w₁, choice, registry, heap, handles⟩ : ∃ w₁,
      chooseMethod h.view "equals" [.object h'.target] true w = .ok rootEquals w₁ ∧
        w₁.registry = w.registry ∧ w₁.heap = w.heap ∧ w₁.handles = w.handles := by
    unfold chooseMethod
    rw [Task.get_bind]
    generalize Overload.chooseMethod w.registry h.view "equals" [.object h'.target] true w.memo =
      result at chosen
    obtain ⟨outcome, events, memo⟩ := result
    cases chosen
    exact ⟨_, rfl, rfl, rfl, rfl⟩
  obtain ⟨sound₁, grows₁, _⟩ := (safe_chooseMethod sound _ _ _ _).ok choice
  let event := resolvedEvent (w₁.registry.describeMethod rootEquals) 1
  have emitted : (Task.emit event : Task BridgeError Unit) w₁ =
      .ok () { w₁ with events := w₁.events ++ [event] } := rfl
  have sound₂ := ((Task.safe_emit sound₁ event).ok emitted).1
  have held := (sound.handles h' (List.mem_of_getElem? live')).1
  have keeps : w₁.registry.Keeps .object (.object h'.target) := by
    have object := sound₁.registry.coherent.object.1
    refine ⟨?_, accepts_object sound₁ (grows₁.heap held), Or.inl ?_⟩
    · rw [Registry.primitiveKind?, object]
      rfl
    · rw [Registry.component?, object]
      rfl
  have converted := Marshal.convertArguments_kept sound₂ (.cons keeps .nil)
  have alive : w₁.handle? id = some h := by rwa [World.handle?, handles]
  refine ⟨⟨rootEquals, w₁.registry.describeMethod rootEquals, some h.target, [.object h'.target]⟩,
    { w₁ with events := w₁.events ++ [event] }, ?_, rfl, rfl, rfl, alive, heap, registry⟩
  unfold prepare
  rw [equalsSite, Task.bind_ok unwrapped, Task.get_bind, view, Task.bind_ok choice, Task.get_bind]
  refine (Task.bind_ok emitted _).trans ((Task.bind_ok converted _).trans ?_)
  simp only [if_true, receiver?, alive, Option.map_some]
  rfl

/-- Through any handle of an object, a super view or not, the call answers whether the handles are
of one object. -/
theorem answers_call (bound : BoundRun w) (live : w.handle? id = some h)
    (live' : w.handle? other = some h') (root : w.registry.RootEquals h.target.cls)
    (chosen : (Overload.chooseMethod w.registry h.view "equals" [.object h'.target] true
      w.memo).1 = .ok rootEquals) (run : Runner) :
    ((Proxy.instance id).call run (equalsSite other)).Answers w
      (.boolean (decide (h.target = h'.target))) := by
  have heldA := (bound.sound.handles h (List.mem_of_getElem? live)).1
  have heldB := (bound.sound.handles h' (List.mem_of_getElem? live')).1
  obtain ⟨p, w₁, prepared, method, receiver, args, live₁, heap, registry⟩ :=
    prepare_equals bound.sound live live' chosen
  have bound₁ : BoundRun w₁ := by
    have step := bound.step (.prepareCall (.instance id) (equalsSite other)) trivial trivial
    rwa [Move.apply, prepared] at step
  let w₂ : World := { w₁ with handles := (HandleTable.Use.take id).apply w₁.handles }
  have taken : (takeSuperCall (some h.target) (.instance id) : Task NativeError Bool) w₁ =
      .ok (h.superCall && h.dispatcher.isSome) w₂ := takeSuperCall_of_receiver live₁ h.target
  have bound₂ : BoundRun w₂ := by
    have step := bound₁.step (.takeSuperCall (.instance id) (some h.target)) trivial trivial
    rwa [Move.apply, takeSuperCall_of_receiver live₁] at step
  rw [← heap] at heldA heldB
  rw [← registry] at root
  obtain ⟨w₃, answered⟩ : ((Proxy.instance id).invokeChosen run rootEquals (some h.target)
      [.object h'.target]).Answers w₁ (.boolean (decide (h.target = h'.target))) := by
    unfold Task.Answers
    rw [invokeChosen_of_taken taken]
    split
    · exact Invoke.answers_invokeSuper bound₂ heldA heldB root run
    · exact Invoke.answers_invoke bound₂ heldA heldB root run
  have mapped : Task.mapError (BridgeError.ofNative p.member)
      ((Proxy.instance id).invokeChosen run rootEquals (some h.target) [.object h'.target]) w₁ =
      .ok (.boolean (decide (h.target = h'.target))) w₃ := by
    unfold Task.mapError
    rw [answered]
  refine ⟨w₃, ?_⟩
  rw [call_of_prepared prepared, method, receiver, args, Prepared.finish, Task.bind_ok mapped]
  rfl

end Proxy

/-- Where overload choice settles on `equals` of an object, it is the method of the root class. -/
theorem Registry.RootEquals.eq_of_chosen {r : Registry} {cls view : TypeId} {args : List Value}
    {memo : Overload.Memo} {m : Method} (root : r.RootEquals cls) (settled : r.Settled)
    (assignable : r.isAssignable cls view = true)
    (chosen : (Overload.chooseMethod r view "equals" args true memo).1 = .ok m)
    (params : m.params = [.object]) : m = rootEquals := by
  have candidate := Overload.choose_mem chosen
  have name : m.name = "equals" := by
    simpa using (Bool.and_eq_true_iff.mp (List.mem_filter.mp candidate).2).1
  exact root.eq_of_mem settled assignable (Proxy.mem_allMethods_of_candidate candidate).1 name
    params

/-- A sole candidate is taken at once. -/
theorem Registry.SoleEquals.chosen {r : Registry} {cls view : TypeId} {arg : Value}
    (sole : r.SoleEquals cls) (settled : r.Settled) (assignable : r.isAssignable cls view = true)
    (below : r.isAssignable view .object = true) (memo : Overload.Memo) :
    (Overload.chooseMethod r view "equals" [arg] true memo).1 = .ok rootEquals := by
  rw [Overload.chooseMethod, sole.methodCandidates_eq settled assignable below]
  rfl

/-- Native code finds it by name. -/
theorem Registry.SoleEquals.virtualMethod?_eq (sole : w.registry.SoleEquals a.cls)
    (sound : w.Sound) (heldA : w.heap.Holds a) (heldB : w.heap.Holds b) :
    w.registry.virtualMethod? a.cls "equals" [.object b] = some rootEquals := by
  have own : w.registry.isAssignable a.cls a.cls = true :=
    (isAssignable_iff sound.registry).mpr (.refl _)
  have member := sole.root.mem_allMethods sound.registry own (sound.assignable_object heldA)
  have isFound : (w.registry.virtualMethod? a.cls "equals" [.object b]).isSome = true := by
    have name : rootEquals.name = "equals" := rfl
    have onInstance : rootEquals.isStatic = false := rfl
    have params : rootEquals.params = [.object] := rfl
    refine List.find?_isSome.mpr ⟨rootEquals, member, ?_⟩
    simp [name, onInstance, params, accepts_object sound heldB]
  obtain ⟨m, found⟩ := Option.isSome_iff_exists.mp isFound
  have fits := List.find?_some found
  simp only [Bool.and_eq_true, beq_iff_eq] at fits
  rw [found, sole.eq_of_mem sound.registry own (List.mem_of_find?_eq_some found) fits.1.1.1]

/-- Whichever way `equals` of an object is called on `a` with `b`, it succeeds, and the answer is
whether they are one object. -/
structure World.EqualsByIdentity (w : World) (a b : ObjectRef) : Prop where
  /-- Every type that the object can be seen under has the method. -/
  found : ∀ i, w.registry.isAssignable a.cls i = true →
    ∃ m ∈ w.registry.allMethods i, m.name = "equals" ∧ m.params = [.object]
  invoked : ∀ run i m, w.registry.isAssignable a.cls i = true → m ∈ w.registry.allMethods i →
    m.name = "equals" → m.params = [.object] →
    (Invoke.invoke run m (some a) [.object b]).Answers w (.boolean (decide (a = b)))
  /-- The same past the overrides. -/
  passed : ∀ run i m, w.registry.isAssignable a.cls i = true → m ∈ w.registry.allMethods i →
    m.name = "equals" → m.params = [.object] →
    (Invoke.invokeSuper run m (some a) [.object b]).Answers w (.boolean (decide (a = b))) ∧
      (Invoke.invokeForced run m (some a) [.object b]).Answers w (.boolean (decide (a = b))) ∧
      (Invoke.invokeDirect run m a [.object b]).Answers w (.boolean (decide (a = b)))
  /-- A virtual call of native code that finds this method by its name. -/
  virtual : ∀ run m, w.registry.virtualMethod? a.cls "equals" [.object b] = some m →
    m.params = [.object] →
    (Invoke.invokeVirtual run a "equals" [.object b]).Answers w (.boolean (decide (a = b)))
  /-- A call of script code, through a super view or any other handle of `a`, for which this method
  is chosen. -/
  called : ∀ run id h other h' m, w.handle? id = some h → h.target = a →
    w.handle? other = some h' → h'.target = b →
    (Overload.chooseMethod w.registry h.view "equals" [.object b] true w.memo).1 = .ok m →
    m.params = [.object] →
    ((Proxy.instance id).call run (Proxy.equalsSite other)).Answers w
      (.boolean (decide (a = b)))
  /-- Where there are no other methods of the name, every call by name goes to this one. -/
  named : w.registry.SoleEquals a.cls →
    (∀ run, (Invoke.invokeVirtual run a "equals" [.object b]).Answers w
      (.boolean (decide (a = b)))) ∧
    ∀ run id h other h', w.handle? id = some h → h.target = a →
      w.handle? other = some h' → h'.target = b →
      ((Proxy.instance id).call run (Proxy.equalsSite other)).Answers w
        (.boolean (decide (a = b)))

theorem BoundRun.equalsByIdentity (bound : BoundRun w) (heldA : w.heap.Holds a)
    (heldB : w.heap.Holds b) (root : w.registry.RootEquals a.cls) : w.EqualsByIdentity a b := by
  have sound := bound.sound
  have shown : ∀ {id h}, w.handle? id = some h →
      w.registry.isAssignable h.target.cls h.view = true :=
    fun live => (sound.handles _ (List.mem_of_getElem? live)).2
  constructor
  case found =>
    intro i assignable
    have below := sound.view_assignable_object heldA assignable
    exact ⟨rootEquals, root.mem_allMethods sound.registry assignable below, rfl, rfl⟩
  case invoked =>
    intro run i m assignable member name params
    rw [root.eq_of_mem sound.registry assignable member name params]
    exact Invoke.answers_invoke bound heldA heldB root run
  case passed =>
    intro run i m assignable member name params
    rw [root.eq_of_mem sound.registry assignable member name params]
    exact ⟨Invoke.answers_invokeSuper bound heldA heldB root run,
      Invoke.answers_invokeForced bound heldA heldB root run,
      Invoke.answers_invokeDirect bound heldA heldB root run⟩
  case virtual =>
    intro run m found params
    have own : w.registry.isAssignable a.cls a.cls = true :=
      (Registry.isAssignable_iff sound.registry).mpr (.refl _)
    have fits := List.find?_some found
    simp only [Bool.and_eq_true, beq_iff_eq] at fits
    rw [root.eq_of_mem sound.registry own (List.mem_of_find?_eq_some found) fits.1.1.1 params]
      at found
    exact Invoke.answers_invokeVirtual bound heldA heldB root run found
  case called =>
    rintro run id h other h' m live rfl live' rfl chosen params
    rw [root.eq_of_chosen sound.registry (shown live) chosen params] at chosen
    exact Proxy.answers_call bound live live' root chosen run
  case named =>
    intro sole
    constructor
    · intro run
      exact Invoke.answers_invokeVirtual bound heldA heldB root run
        (sole.virtualMethod?_eq sound heldA heldB)
    · rintro run id h other h' live rfl live' rfl
      have below := sound.view_assignable_object heldA (shown live)
      exact Proxy.answers_call bound live live' root
        (sole.chosen sound.registry (shown live) below w.memo) run

/-- `equals`, called on the one object with the other, answers yes. -/
def World.AnswersEqual (w : World) (a b : ObjectRef) : Prop :=
  ∀ run, (Invoke.invoke run rootEquals (some a) [.object b]).Answers w (.boolean true)

theorem BoundRun.answersEqual_iff (bound : BoundRun w) (heldA : w.heap.Holds a)
    (heldB : w.heap.Holds b) (root : w.registry.RootEquals a.cls) :
    w.AnswersEqual a b ↔ a = b := by
  constructor
  · intro equal
    obtain ⟨_, yes⟩ := equal Eval.run
    obtain ⟨_, answered⟩ := Invoke.answers_invoke bound heldA heldB root Eval.run
    rw [answered] at yes
    injection yes with value _
    exact of_decide_eq_true (Value.boolean.inj value)
  · rintro rfl run
    obtain ⟨w', answered⟩ := Invoke.answers_invoke bound heldA heldA root run
    exact ⟨w', by rw [answered, decide_eq_true rfl]⟩

/-- At every moment of a run in which dispatchers come with their objects: on an object in whose
hierarchy only the root class declares `equals` of an object, the method answers by identity,
whichever way it is called and whatever the overrides are. So it is an equivalence on these
objects, with and without overrides. -/
theorem equals_is_identity (bound : BoundRun w) :
    (∀ a b, w.heap.Holds a → w.heap.Holds b → w.registry.RootEquals a.cls →
      w.EqualsByIdentity a b) ∧
    Equivalence fun a b : { object // w.heap.Holds object ∧ w.registry.RootEquals object.cls } =>
      w.AnswersEqual a b := by
  have iff_eq : ∀ a b : { object // w.heap.Holds object ∧ w.registry.RootEquals object.cls },
      w.AnswersEqual a b ↔ a = b := by
    intro a b
    rw [bound.answersEqual_iff a.2.1 b.2.1 a.2.2, Subtype.ext_iff]
  refine ⟨fun a b heldA heldB root => bound.equalsByIdentity heldA heldB root, ?_, ?_, ?_⟩
  · intro a
    exact (iff_eq a a).mpr rfl
  · intro a b equal
    exact (iff_eq b a).mpr ((iff_eq a b).mp equal).symm
  · intro a b c first second
    exact (iff_eq a c).mpr (((iff_eq a b).mp first).trans ((iff_eq b c).mp second))

/-- The choir's world with a second choir, whose script overrides `equals`, and a plain voice. -/
def choirsWorld : World :=
  (Action.newInstance ⟨⟨20⟩, ⟨20⟩, "app.Voice", .plain⟩ []).apply
    ((Action.newInstanceWithOverrides ⟨⟨22⟩, ⟨21⟩, "app.Choir", .subclass⟩
      (.dict [("equals", .function ⟨0⟩)]) []).apply choirWorld)

theorem boundRun_choirsWorld : BoundRun choirsWorld := by
  have voice := (BoundRun.initial .default .always).act (.define voiceDraft)
    (Action.allowed_define (by decide)) trivial
  have classes := voice.act (.define choirDraft) (Action.allowed_define (by decide)) trivial
  have made : BoundRun choirWorld :=
    ((classes.act (.extend _) trivial trivial).act (.addFunction _) trivial trivial).act
      (.newInstanceWithOverrides _ _ _) trivial trivial
  exact (made.act (.newInstanceWithOverrides _ _ _) trivial trivial).act (.newInstance _ _)
    trivial trivial

/-- The two choirs and the voice are told apart, although the second choir overrides `equals`. -/
theorem equals_is_identity_choirsWorld :
    BoundRun choirsWorld ∧ ((choirsWorld.overrides ⟨1⟩).lookup "equals").isSome = true ∧
    choirsWorld.registry.SoleEquals choir.cls ∧
    choirsWorld.EqualsByIdentity ⟨1, ⟨22⟩⟩ ⟨1, ⟨22⟩⟩ ∧
    choirsWorld.EqualsByIdentity ⟨1, ⟨22⟩⟩ choir ∧
    choirsWorld.EqualsByIdentity ⟨2, ⟨20⟩⟩ ⟨1, ⟨22⟩⟩ := by
  have holds : ∀ ref : ObjectRef,
      (choirsWorld.heap.get? ref).map Object.cls = some ref.cls → choirsWorld.heap.Holds ref :=
    fun _ cls => Option.map_eq_some_iff.mp cls
  have first := holds choir (by decide +kernel)
  have second := holds ⟨1, ⟨22⟩⟩ (by decide +kernel)
  have voice := holds ⟨2, ⟨20⟩⟩ (by decide +kernel)
  have soleChoir : choirsWorld.registry.SoleEquals ⟨22⟩ := by decide +kernel
  have soleVoice : choirsWorld.registry.SoleEquals ⟨20⟩ := by decide +kernel
  have identity := (equals_is_identity boundRun_choirsWorld).1
  exact ⟨boundRun_choirsWorld, by decide +kernel, soleChoir,
    identity _ _ second second soleChoir.root, identity _ _ second first soleChoir.root,
    identity _ _ voice second soleVoice.root⟩

end Interop
