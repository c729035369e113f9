import Interop.Proofs.World.Moments

/-!
Behind the bridge the checks of invocation never fail. A call that has chosen its method and
converted its arguments passes all that dispatch checks, so the call runs as it would without these
checks; the same goes for construction, and reading a field fails only where no accessible field is
in view. And where overload choice has measured a distance, the conversion of the arguments does not
fail either.
-/
namespace Interop

open Interop.Task (Safe Succeeds)

variable {w w' : World} {m : Method} {receiver : Option ObjectRef} {args : List Value}

namespace Invoke

/-- Dispatch without its checks: there is nothing to run where an instance method has no
receiver. -/
def deliver (run : Runner) (throughHandler : Bool) (m : Method) (receiver : Option ObjectRef)
    (args : List Value) :
    Task NativeError Value := do
  if m.isStatic then runMethod run m none args
  else
    match receiver with
    | none => return .void
    | some object =>
      let w ← get
      let handler := if throughHandler && !m.isFinal then w.heap.handler? object else none
      match handler with
      | some (.overrides dispatcher) => invokeOverridden run dispatcher object m args
      | some .logging =>
        Task.logEntry (.handler (w.registry.describeMethod m))
        invokeDirect run m object args
      | none => invokeDirect run m object args

theorem dispatch_of_guarded (run : Runner) (throughHandler : Bool)
    (guarded : Guarded w.registry m receiver args) :
    dispatch run throughHandler m receiver args w =
      deliver run throughHandler m receiver args w := by
  have checked : Task.ofExcept
      (w.registry.checkArguments m.params args (w.registry.describeMethod m)) w = .ok () w := by
    rw [guarded.arguments]
    rfl
  refine (Task.bind_ok checked _).trans ?_
  unfold deliver
  cases isStatic : m.isStatic with
  | true => simp only [if_true]
  | false =>
    obtain ⟨object, rfl, assignable⟩ := guarded.receiver isStatic
    simp only [Bool.false_eq_true, if_false, assignable, Bool.not_true]
    rfl

theorem withAbstractDefault_congr {task task' : Task NativeError Value} (same : task w = task' w)
    (m : Method) :
    withAbstractDefault m task w = withAbstractDefault m task' w := by
  apply Task.bind_congr_first
  unfold Task.outcome
  rw [same]

end Invoke

namespace Proxy

/-- Runs a chosen method without the checks of dispatch. -/
def deliverChosen (run : Runner) (proxy : Proxy) (m : Method) (receiver : Option ObjectRef)
    (args : List Value) :
    Task NativeError Value := do
  if ← takeSuperCall receiver proxy then
    Task.emit (Invoke.superEvent m)
    Invoke.withAbstractDefault m (Invoke.deliver run false m receiver args)
  else Invoke.deliver run true m receiver args

/-- A call without the checks of dispatch. -/
def callUnchecked (run : Runner) (proxy : Proxy) (site : CallSite) :
    Task BridgeError ScriptValue := do
  let p ← proxy.prepare site
  let result ← Task.mapError (BridgeError.ofNative p.member)
    (proxy.deliverChosen run p.method p.receiver p.args)
  Marshal.toScript result

theorem registry_takeSuperCall {ε : Type} {proxy : Proxy} {superCall : Bool}
    (taken : (takeSuperCall receiver proxy : Task ε Bool) w = .ok superCall w') :
    w'.registry = w.registry := by
  cases proxy with
  | cls id =>
    cases taken
    rfl
  | «instance» id =>
    unfold takeSuperCall at taken
    cases receiver <;> cases taken <;> rfl

theorem invokeChosen_of_guarded (run : Runner) (proxy : Proxy)
    (guarded : Guarded w.registry m receiver args) :
    proxy.invokeChosen run m receiver args w = proxy.deliverChosen run m receiver args w := by
  apply Task.bind_congr_after
  intro superCall w₁ taken
  rw [← registry_takeSuperCall taken] at guarded
  cases superCall with
  | true =>
    apply Task.bind_congr_after
    intro _ w₂ emitted
    have same : w₂.registry = w₁.registry := by
      cases emitted
      rfl
    rw [← same] at guarded
    exact Invoke.withAbstractDefault_congr (Invoke.dispatch_of_guarded run false guarded) m
  | false => exact Invoke.dispatch_of_guarded run true guarded

theorem call_of_guarded (run : Runner) {proxy : Proxy} {site : CallSite}
    (guarded : ∀ p w', proxy.prepare site w = .ok p w' →
      Guarded w'.registry p.method p.receiver p.args) :
    proxy.call run site w = proxy.callUnchecked run site w := by
  rw [call_eq]
  apply Task.bind_congr_after
  intro p w₁ prepared
  have same := invokeChosen_of_guarded run proxy (guarded p w₁ prepared)
  exact Task.bind_congr_first (Task.mapError_congr same _) _

end Proxy

namespace Invoke

/-- Construction without a check of the arguments. -/
def constructUnchecked (run : Runner) (c : Constructor) (args : List Value)
    (handler : Option Handler) :
    Task NativeError ObjectRef := do
  let w ← get
  let type ← Task.ofExcept (w.registry.require c.declaring)
  if !type.isClass || type.modifiers.isAbstract then throw (.notInstantiable type.name)
  let fields := w.registry.instanceDefaults type.id
  let (object, heap) :=
    w.heap.alloc { cls := type.id, contents := .fields fields, handler := handler }
  set { w with heap := heap }
  match c.body with
  | some code => let _ ← run.native code ⟨some object, args⟩
  | none => pure ()
  Task.emit (constructedEvent type.name)
  return object

theorem construct_of_checked (run : Runner) {c : Constructor} (handler : Option Handler)
    (checked : w.registry.checkArguments c.params args (w.registry.describeConstructor c) =
      .ok ()) :
    construct run c args handler w = constructUnchecked run c args handler w := by
  have passed : Task.ofExcept
      (w.registry.checkArguments c.params args (w.registry.describeConstructor c)) w =
      .ok () w := by
    rw [checked]
    rfl
  change (Task.ofExcept (w.registry.require c.declaring) >>= _) w =
    (Task.ofExcept (w.registry.require c.declaring) >>= _) w
  cases w.registry.require c.declaring with
  | error e => rfl
  | ok type =>
    refine (Task.bind_ok rfl _).trans (Eq.trans ?_ (Task.bind_ok rfl _).symm)
    dsimp only
    split
    · rfl
    · exact Task.bind_ok passed _

end Invoke

namespace ClassHandle

/-- Runs the closest constructor of the handle's type without a check of its arguments. -/
def constructUnchecked (run : Runner) (handle : ClassHandle) (args : List ScriptValue)
    (handler : Option Handler) :
    Task BridgeError ObjectRef := do
  let (c, args) ← handle.prepare args
  let w ← get
  Task.mapError (BridgeError.ofNative (w.registry.describeConstructor c))
    (Invoke.constructUnchecked run c args handler)

theorem construct_of_checked (run : Runner) {handle : ClassHandle} {values : List ScriptValue}
    (handler : Option Handler) (checked : ∀ c args w', handle.prepare values w = .ok (c, args) w' →
      w'.registry.checkArguments c.params args (w'.registry.describeConstructor c) = .ok ()) :
    handle.construct run values handler w = handle.constructUnchecked run values handler w := by
  rw [construct_eq]
  apply Task.bind_congr_after
  rintro ⟨c, args⟩ w₁ prepared
  exact Task.mapError_congr (Invoke.construct_of_checked run handler (checked c args w₁ prepared)) _

end ClassHandle

theorem fields_of_array {r : Registry} {i c : TypeId} {t : TypeInfo} (coherent : r.Coherent)
    (found : r.get? i = some t) (array : t.kind = .array c) : t.fields = [] := by
  rw [(coherent.fits found).array_shape c array]
  rfl

/-- A type that declares fields and that an object can be seen under is searched from its class,
which is no array class. -/
theorem path_of_declared {r : Registry} {i j : TypeId} {t : TypeInfo} {f : Field}
    (settled : r.Settled)
    (below : r.Below i j) (found : r.get? j = some t) (declared : f ∈ t.fields) :
    (∃ n, r.Path n i j) ∧ r.component? i = none := by
  have noArray : ∀ {c}, t.kind ≠ .array c := by
    intro c array
    rw [fields_of_array settled.coherent found array] at declared
    cases declared
  have path : ∃ n, r.Path n i j := by
    cases below with
    | refl => exact ⟨0, .here i⟩
    | climb path => exact ⟨_, path⟩
    | array _ target _ =>
      obtain ⟨⟨u, there, array⟩, _⟩ := target
      rw [found] at there
      cases there
      exact absurd array noArray
  refine ⟨path, ?_⟩
  obtain ⟨n, path⟩ := path
  rw [Option.eq_none_iff_forall_ne_some]
  intro c component
  obtain ⟨u, there, array⟩ := Option.bind_eq_some_iff.mp component
  rw [TypeInfo.component?_eq] at array
  cases n with
  | zero =>
    cases path
    rw [found] at there
    cases there
    exact absurd array noArray
  | succ n =>
    -- From an array the search goes to the root class only, which declares no fields.
    have root := Registry.path_array settled.coherent there array path
    subst root
    rw [settled.coherent.object.1] at found
    cases found
    cases declared

/-- A field that is in view is declared by a type that is searched from the class. -/
theorem field?_inherited {r : Registry} {cls view : TypeId} {name : String} {f : Field}
    (settled : r.Settled) (assignable : r.isAssignable cls view = true)
    (found : r.field? view name = some f) :
    f.name = name ∧ r.component? cls = none ∧ ∃ t ∈ r.searchOrder cls, f ∈ t.fields := by
  rw [Registry.isAssignable_iff settled] at assignable
  obtain ⟨named, t, listed, declared⟩ := Registry.field?_declared found
  obtain ⟨j, there, n, path⟩ := (Registry.mem_searchOrder settled).mp listed
  have below := assignable.trans settled.coherent (Registry.below_of_path path)
  obtain ⟨inherited, noArray⟩ := path_of_declared settled below there declared
  exact ⟨named, noArray, t, (Registry.mem_searchOrder settled).mpr ⟨j, there, inherited⟩, declared⟩

/-- An object has the fields that are in view. -/
theorem field_present {target : ObjectRef} {view : TypeId} {name : String} {f : Field}
    (sound : w.Sound) (shown : w.Shows target view) (found : w.registry.field? view name = some f)
    (onInstance : f.isStatic = false) :
    ∃ v, w.heap.field? target f.name = some v := by
  obtain ⟨held, assignable⟩ := shown
  obtain ⟨_, noArray, t, searched, declared⟩ := field?_inherited sound.registry assignable found
  obtain ⟨o, stored, cls⟩ := held
  have typed := sound.typed stored
  unfold Object.Typed at typed
  split at typed
  · obtain ⟨c, component, _⟩ := typed
    rw [cls, noArray] at component
    cases component
  · next fields contents =>
    rw [cls] at typed
    obtain ⟨v, value⟩ := Option.isSome_iff_exists.mp (typed.2.2.1 t searched f declared onInstance)
    exact ⟨v, by simp [Heap.field?, stored, contents, value]⟩

theorem Invoke.succeeds_getField {target : ObjectRef} {view : TypeId} {name : String} {f : Field}
    (sound : w.Sound) (shown : w.Shows target view) (found : w.registry.field? view name = some f) :
    Succeeds (Invoke.getField f (some target)) w := by
  refine .get ?_
  cases onInstance : f.isStatic with
  | true =>
    obtain ⟨_, t, listed, declared⟩ := Registry.field?_declared found
    obtain ⟨j, there, _⟩ := (Registry.mem_searchOrder sound.registry).mp listed
    have owner : w.registry.require f.declaring = .ok t := by
      rw [(sound.registry.coherent.fits there).own_fields f declared,
        sound.registry.coherent.ids there]
      simp [Registry.require, there]
    exact .ofExcept owner ⟨_, _, rfl⟩
  | false =>
    obtain ⟨v, value⟩ := field_present sound shown found onInstance
    simp only [Bool.false_eq_true, if_false, value]
    exact ⟨_, _, rfl⟩

theorem Marshal.succeeds_toScript {ε : Type} (v : Value) (w : World) :
    Succeeds (toScript v : Task ε ScriptValue) w := by
  cases v with
  | object ref =>
    refine .get ?_
    split <;> exact ⟨_, _, rfl⟩
  | _ => exact ⟨_, _, rfl⟩

/-- A field that script code can reach is read. -/
theorem Proxy.succeeds_getField {id : HandleId} {handle : Handle} {name : String} {f : Field}
    (sound : w.Sound) (live : w.handle? id = some handle)
    (found : accessibleField w.registry handle.view name = .ok f) :
    Succeeds ((Proxy.instance id).getField name) w := by
  have view : (Proxy.instance id).memberType w = handle.view := by simp [memberType, live]
  have target : (Proxy.instance id).receiver? w = some handle.target := by simp [receiver?, live]
  have shown : w.Shows handle.target handle.view := sound.handles handle (List.mem_of_getElem? live)
  refine .get (.ofExcept (view ▸ found) ?_)
  rw [target]
  have read := Invoke.succeeds_getField sound shown (accessibleField_ok found)
  obtain ⟨v, w₁, done⟩ := read.mapError (BridgeError.ofNative f.name)
  exact .after done (Marshal.succeeds_toScript v w₁)

/-- A field that script code cannot reach is not read. -/
theorem Proxy.getField_of_inaccessible {id : HandleId} {handle : Handle} {name : String}
    {e : BridgeError} (live : w.handle? id = some handle)
    (failed : accessibleField w.registry handle.view name = .error e) :
    (Proxy.instance id).getField name w = .error e w := by
  have view : (Proxy.instance id).memberType w = handle.view := by simp [memberType, live]
  rw [← view] at failed
  change (Task.ofExcept (accessibleField w.registry _ name) >>= _) w = _
  rw [failed]
  rfl

theorem Proxy.accessibleField_error {r : Registry} {type : TypeId} {name : String} {e : BridgeError}
    (failed : accessibleField r type name = .error e) :
    (e = .notFound (.field name (r.typeName type)) ∧ r.field? type name = none) ∨
      (e = .accessFailure (.field name (r.typeName type)) ∧
        ∃ f, r.field? type name = some f ∧ f.modifiers.isAccessible = false) := by
  unfold accessibleField at failed
  split at failed
  · next absent =>
    cases failed
    exact Or.inl ⟨rfl, absent⟩
  · next f found =>
    split at failed
    · cases failed
    · next inaccessible =>
      cases failed
      exact Or.inr ⟨rfl, f, found, by simpa using inaccessible⟩

/-- At every moment, and for every handle: a call that gets to its method passes
the checks of dispatch and runs as if there were none, a construction that gets to its constructor
passes the check of its arguments, and a field is not read only where none of the name is in view or
the one in view is not accessible. -/
theorem guards_never_fire {id : HandleId} {handle : Handle} (moment : Moment w)
    (live : w.handle? id = some handle) :
    (∀ site : CallSite,
      (∀ p w', (Proxy.instance id).prepare site w = .ok p w' →
        Guarded w'.registry p.method p.receiver p.args) ∧
        ∀ run, (Proxy.instance id).call run site w = (Proxy.instance id).callUnchecked run site w) ∧
    (∀ (cls : ClassHandle) (values : List ScriptValue),
      (∀ c args w', cls.prepare values w = .ok (c, args) w' →
        w'.registry.checkArguments c.params args (w'.registry.describeConstructor c) = .ok ()) ∧
        ∀ run handler, cls.construct run values handler w =
          cls.constructUnchecked run values handler w) ∧
    ∀ name e w', (Proxy.instance id).getField name w = .error e w' →
      (e = .notFound (.field name (w.registry.typeName handle.view)) ∧
        w.registry.field? handle.view name = none) ∨
        (e = .accessFailure (.field name (w.registry.typeName handle.view)) ∧
          ∃ f, w.registry.field? handle.view name = some f ∧ f.modifiers.isAccessible = false) := by
  have sound := moment.sound
  refine ⟨?_, ?_, ?_⟩
  · intro site
    have guarded : ∀ p w', (Proxy.instance id).prepare site w = .ok p w' →
        Guarded w'.registry p.method p.receiver p.args :=
      fun p w' prepared => ((Proxy.safe_prepare sound _ site).ok prepared).2.2 rfl live
    exact ⟨guarded, fun run => Proxy.call_of_guarded run guarded⟩
  · intro cls values
    have checked : ∀ c args w', cls.prepare values w = .ok (c, args) w' →
        w'.registry.checkArguments c.params args (w'.registry.describeConstructor c) = .ok () :=
      fun c args w' prepared => ((ClassHandle.safe_prepare sound cls values).ok prepared).2.2
    exact ⟨checked, fun run handler => ClassHandle.construct_of_checked run handler checked⟩
  · intro name e w' failed
    cases access : Proxy.accessibleField w.registry handle.view name with
    | ok f =>
      obtain ⟨v, w₁, done⟩ := Proxy.succeeds_getField sound live access
      rw [done] at failed
      cases failed
    | error fault =>
      rw [Proxy.getField_of_inaccessible live access] at failed
      cases failed
      exact Proxy.accessibleField_error access

/-- A class that adds one number, or any number of texts, to a total of its own. -/
def tallyDraft : TypeDraft where
  name := "app.Tally"
  isInterface := false
  modifiers := .plain
  superclass := none
  interfaces := []
  methods := [
    ⟨"add", [.primitive .long], none, .plain, false, some (.code (.argument 0))⟩,
    ⟨"add", [⟨20⟩], none, .plain, true, some (.code (.argument 0))⟩]
  constructors := [⟨[], .plain, false, none⟩]
  fields := [⟨"total", .primitive .long, .none, some (.long 0)⟩]

/-- The world after the array type of texts, the class and one instance have been made. -/
def tallyWorld : World :=
  (Action.newInstance ⟨⟨21⟩, ⟨21⟩, "app.Tally", .plain⟩ []).apply
    ((Action.define tallyDraft).apply ((Action.arrayOf .string).apply (.initial .default .always)))

theorem reachable_tallyWorld : Reachable tallyWorld := by
  have arrays : Reachable ((Action.arrayOf .string).apply (.initial .default .always)) :=
    .step (.initial _ _) (.arrayOf .string) trivial
  refine .step (.step arrays (.define tallyDraft) ?_) (.newInstance _ _) trivial
  intro v member
  have values : tallyDraft.values = [.long 0] := rfl
  rw [values, List.mem_singleton] at member
  rw [member]
  trivial

/-- A call that packs two texts for the variadic method passes all checks, and the field is not
accessible. -/
theorem guards_tallyWorld :
    (∃ p w', (Proxy.instance ⟨0⟩).prepare ⟨"add", [.string "a", .string "b"], true⟩ tallyWorld =
      .ok p w' ∧
      Guarded w'.registry p.method p.receiver p.args) ∧
    ∃ e w', (Proxy.instance ⟨0⟩).getField "total" tallyWorld = .error e w' ∧
      (e = .notFound (.field "total" "app.Tally") ∨
        e = .accessFailure (.field "total" "app.Tally")) := by
  have live : tallyWorld.handle? ⟨0⟩ = some ⟨⟨0, ⟨21⟩⟩, ⟨21⟩, none, false, 1⟩ := rfl
  obtain ⟨calls, _, fields⟩ := guards_never_fire (moment_of_reachable reachable_tallyWorld) live
  obtain ⟨p, w', prepared⟩ :
      Succeeds ((Proxy.instance ⟨0⟩).prepare ⟨"add", [.string "a", .string "b"], true⟩)
        tallyWorld := by
    decide +kernel
  obtain ⟨e, w'', failed⟩ : ∃ e w'', (Proxy.instance ⟨0⟩).getField "total" tallyWorld =
      .error e w'' := ⟨_, _, rfl⟩
  refine ⟨⟨p, w', prepared, (calls _).1 p w' prepared⟩, ⟨e, w'', failed, ?_⟩⟩
  exact (fields "total" e w'' failed).imp And.left And.left

namespace Overload

variable {α : Type} {r : Registry} {memo : Memo} {signature : α → Signature} {candidates : List α}
    {chosen : α}

/-- Neither of the shortcuts of overload choice applies. -/
def ByDistance (signature : α → Signature) (candidates : List α) (args : List Value) : Prop :=
  2 ≤ candidates.length ∧ (args = [] → ∀ c ∈ candidates, (signature c).params ≠ [])

theorem scored_of_choose {name : String} {absent noMatch : BridgeError}
    (byDistance : ByDistance signature candidates args)
    (success : (choose r signature name candidates args absent noMatch memo).1 = .ok chosen) :
    isApplicable (signature chosen) args = true ∧
      (score r (signature chosen) args memo).1.isSome := by
  have closest := choose_closest r signature name candidates args absent noMatch memo
  obtain ⟨_, _, n, _, scored, _⟩ := (closest.closest byDistance.1 byDistance.2 chosen).mp success
  simp only [callScore] at scored
  split at scored
  · next applicable => exact ⟨applicable, by simp [scored]⟩
  · cases scored

end Overload

/-- Choosing gives what overload choice gives, and adds no types. -/
theorem chosen_ok {α : Type} {choice : Except BridgeError α × List Event × Overload.Memo}
    {chosen : α}
    (success : (do
      set { w with memo := choice.2.2, events := w.events ++ choice.2.1 }
      Task.ofExcept choice.1 : Task BridgeError α) w = .ok chosen w') :
    choice.1 = .ok chosen ∧ w'.registry = w.registry := by
  obtain ⟨result, events, memo⟩ := choice
  cases result <;> cases success
  exact ⟨rfl, rfl⟩

/-- What has been measured in one world can be converted in a later one with the same types. -/
theorem succeeds_convert_measured {member : Signature} (sound : w.Sound)
    (passable : ∀ v ∈ args, Marshal.Passable w v)
    (legal : Overload.isApplicable member args = true ∧
      (Overload.score w.registry member args w.memo).1.isSome)
    (sound' : w'.Sound) (grows : w.Grows w') (same : w'.registry = w.registry) :
    Succeeds (Marshal.convertArguments args member.params member.variadic) w' := by
  have passable' : ∀ v ∈ args, Marshal.Passable w' v :=
    fun v listed => (passable v listed).grow grows
  have justified : w.memo.Justified w'.registry := by
    rw [same]
    exact sound.memo
  refine Marshal.succeeds_convertArguments sound' passable' justified legal.1 ?_
  rw [same]
  exact legal.2

/-- Script values that have been unwrapped can be converted for every member that they have a score
for, so a call or a construction whose member has won by distance gets to run it. -/
theorem legal_arguments_convert {values : List ScriptValue} (moment : Moment w)
    (unwrapped : Marshal.unwrapAll values w = .ok args w') :
    (∀ member : Signature, Overload.isApplicable member args = true →
      (Overload.score w'.registry member args w'.memo).1.isSome →
      Succeeds (Marshal.convertArguments args member.params member.variadic) w') ∧
    (∀ (proxy : Proxy) name onInstance m w'',
      Proxy.chooseMethod (proxy.memberType w') name args onInstance w' = .ok m w'' →
      Overload.ByDistance Method.signature
        (Overload.methodCandidates w'.registry (proxy.memberType w') name onInstance) args →
      Succeeds (proxy.prepare ⟨name, values, onInstance⟩) w) ∧
    ∀ (cls : ClassHandle) c w'', Proxy.chooseConstructor cls.type args w' = .ok c w'' →
      Overload.ByDistance Constructor.signature (w'.registry.constructors cls.type) args →
      Succeeds (cls.prepare values) w := by
  obtain ⟨sound, _, passable⟩ := (Marshal.safe_unwrapAll values moment.sound).ok unwrapped
  refine ⟨?_, ?_, ?_⟩
  · intro member applicable scored
    exact Marshal.succeeds_convertArguments sound passable sound.memo applicable scored
  · intro proxy name onInstance m w₂ chosen byDistance
    obtain ⟨sound₂, grows₂, _⟩ := (Proxy.safe_chooseMethod sound _ _ _ _).ok chosen
    obtain ⟨choice, same⟩ := chosen_ok chosen
    have legal := Overload.scored_of_choose byDistance choice
    let event := Proxy.resolvedEvent (w₂.registry.describeMethod m) args.length
    have emitted : (Task.emit event : Task BridgeError Unit) w₂ =
        .ok () { w₂ with events := w₂.events ++ [event] } := rfl
    obtain ⟨sound₃, grows₃, _⟩ := (Task.safe_emit sound₂ event).ok emitted
    obtain ⟨converted, w₄, done⟩ :=
      succeeds_convert_measured sound passable legal sound₃ (grows₂.trans grows₃) same
    exact .after unwrapped (.get (.after chosen (.get (.after emitted (.after done ⟨_, _, rfl⟩)))))
  · intro cls c w₂ chosen byDistance
    obtain ⟨sound₂, grows₂, _⟩ := (Proxy.safe_chooseConstructor sound _ _).ok chosen
    obtain ⟨choice, same⟩ := chosen_ok chosen
    have legal := Overload.scored_of_choose byDistance choice
    obtain ⟨converted, w₃, done⟩ :=
      succeeds_convert_measured sound passable legal sound₂ grows₂ same
    exact .after unwrapped (.after chosen (.after done ⟨_, _, rfl⟩))

/-- Texts have a score for the variadic method only. They are converted for it, and the call gets to
it. -/
theorem legal_arguments_tallyWorld :
    Marshal.unwrapAll [.string "a", .string "b"] tallyWorld =
      .ok [.string "a", .string "b"] tallyWorld ∧
      Succeeds (Marshal.convertArguments [.string "a", .string "b"] [⟨20⟩] true) tallyWorld ∧
      Succeeds ((Proxy.instance ⟨0⟩).prepare ⟨"add", [.string "a", .string "b"], true⟩)
        tallyWorld := by
  have unwrapped : Marshal.unwrapAll [.string "a", .string "b"] tallyWorld =
      .ok [.string "a", .string "b"] tallyWorld := rfl
  obtain ⟨members, calls, _⟩ :=
    legal_arguments_convert (moment_of_reachable reachable_tallyWorld) unwrapped
  obtain ⟨m, w', chosen⟩ :
      Succeeds (Proxy.chooseMethod ⟨21⟩ "add" [.string "a", .string "b"] true) tallyWorld :=
    ⟨_, _, rfl⟩
  refine ⟨unwrapped, members ⟨⟨21⟩, [⟨20⟩], true⟩ (by decide) (by decide), ?_⟩
  exact calls (.instance ⟨0⟩) "add" true m w' chosen ⟨by decide, nofun⟩

end Interop
