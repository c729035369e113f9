import Interop.Bridge
import Interop.Proofs.World.Invocation

/-!
What script code does through handles keeps the world sound: calls, field access, new instances,
casts, overrides, and the entry points of the bridge.
-/
namespace Interop

open Interop.Task (Meets Safe)

variable {w w' : World} {v : Value} {run : Runner} {args : List Value}

theorem World.Sound.withChoice {memo : Overload.Memo} {events : List Event} (sound : w.Sound)
    (justified : memo.Justified w.registry) :
    World.Sound { w with memo := memo, events := events } ∧
      w.Grows { w with memo := memo, events := events } := by
  obtain ⟨sound', grows⟩ := sound.withMemo justified
  have chosen : World.Sound { w with memo := memo, events := events } ∧ _ :=
    sound'.unaffected rfl rfl rfl rfl rfl
  exact ⟨chosen.1, grows.trans chosen.2⟩

namespace Proxy

/-- The method that is chosen is one of the candidates. -/
theorem safe_chooseMethod (sound : w.Sound) (type : TypeId) (name : String) (args : List Value)
    (onInstance : Bool) :
    Safe (chooseMethod type name args onInstance)
      (fun w' m => m ∈ Overload.methodCandidates w'.registry type name onInstance) w := by
  have justified : (Overload.chooseMethod w.registry type name args onInstance w.memo).2.2.Justified
      w.registry :=
    Overload.choose_keeps (P := fun memo => memo.Justified w.registry)
      (fun p a _ before => before.distance p a)
      _ _ _ _ _ _ sound.memo
  refine .get (.set (sound.withChoice justified) fun sound₁ _ => .result sound₁ ?_)
  intro m chosen
  exact Overload.choose_mem chosen

/-- Candidates are methods of the type, and of a static call static methods only. -/
theorem mem_allMethods_of_candidate {r : Registry} {type : TypeId} {name : String}
    {onInstance : Bool} {m : Method}
    (candidate : m ∈ Overload.methodCandidates r type name onInstance) :
    m ∈ r.allMethods type ∧ (onInstance = false → m.isStatic = true) := by
  obtain ⟨reachable, fits⟩ := List.mem_filter.mp candidate
  refine ⟨(List.mem_filter.mp reachable).1, ?_⟩
  rintro rfl
  simpa using (Bool.and_eq_true_iff.mp fits).2

theorem safe_chooseConstructor (sound : w.Sound) (type : TypeId) (args : List Value) :
    Safe (chooseConstructor type args) (fun w' c => c.Declared w'.registry) w := by
  have justified :
      (Overload.chooseConstructor w.registry type args w.memo).2.2.Justified w.registry :=
    Overload.choose_keeps (P := fun memo => memo.Justified w.registry)
      (fun p a _ before => before.distance p a)
      _ _ _ _ _ _ sound.memo
  refine .get (.set (sound.withChoice justified) fun sound₁ _ => .result sound₁ ?_)
  intro c chosen
  exact Constructor.declared_of_mem sound.registry (Overload.choose_mem chosen)

theorem holds_receiver {proxy : Proxy} {ref : ObjectRef} (sound : w.Sound)
    (found : proxy.receiver? w = some ref) :
    w.heap.Holds ref := by
  cases proxy with
  | cls id => cases found
  | «instance» id =>
    obtain ⟨handle, there, rfl⟩ := Option.map_eq_some_iff.mp found
    exact (sound.handles handle (List.mem_of_getElem? there)).1

theorem safe_takeSuperCall {ε : Type} (sound : w.Sound) (receiver : Option ObjectRef)
    (proxy : Proxy) :
    Safe (takeSuperCall receiver proxy : Task ε Bool) (fun _ _ => True) w := by
  cases proxy with
  | cls id => exact .pure sound trivial
  | «instance» id =>
    simp only [takeSuperCall]
    split
    · exact .pure sound trivial
    · refine .get (.set (sound.withHandles (HandleTable.evolves_takeSuperCall id)
        (HandleTable.used_apply _ (.take id))) ?_)
      intro sound₁ _
      exact .pure sound₁ trivial

theorem safe_invokeChosen {m : Method} {receiver : Option ObjectRef} (safe : run.Safe)
    (sound : w.Sound)
    (proxy : Proxy) (code : m.Known w) (held : ∀ {ref}, receiver = some ref → w.heap.Holds ref)
    (known : ∀ v ∈ args, w.heap.Knows v) :
    Safe (invokeChosen run proxy m receiver args) Known w := by
  refine (safe_takeSuperCall sound receiver proxy).bind ?_
  intro superCall w₁ sound₁ grows₁ _
  have known₁ : ∀ v ∈ args, w₁.heap.Knows v := fun v member => grows₁.knows (known v member)
  split
  · exact Invoke.safe_invokeSuper safe sound₁ (code.grow grows₁)
      (fun same => grows₁.heap (held same)) known₁
  · exact Invoke.safe_dispatch safe sound₁ true (code.grow grows₁)
      (fun same => grows₁.heap (held same)) known₁

theorem safe_call (safe : run.Safe) (sound : w.Sound) (proxy : Proxy) (site : CallSite) :
    Safe (call run proxy site) (fun _ _ => True) w := by
  refine (Marshal.safe_unwrapAll site.args sound).bind ?_
  intro args w₁ sound₁ _ passable
  refine .get ((safe_chooseMethod sound₁ _ _ _ _).bind ?_)
  intro m w₂ sound₂ grows₂ candidate
  have code := sound₂.method_of_mem (mem_allMethods_of_candidate candidate).1
  refine .get ?_
  refine (Task.safe_emit sound₂ _).bind ?_
  intro _ w₃ sound₃ grows₃ _
  have known₃ : ∀ v ∈ args, w₃.heap.Knows v :=
    fun v member => grows₃.knows (grows₂.knows (passable v member).1)
  refine (Marshal.safe_convertArguments sound₃ known₃ m.params m.variadic).bind ?_
  intro converted w₄ sound₄ grows₄ fitting
  have held : ∀ {ref}, (if site.onInstance then proxy.receiver? w₂ else none) = some ref →
      w₄.heap.Holds ref := by
    intro ref receiver
    split at receiver
    · exact grows₄.heap (grows₃.heap (holds_receiver sound₂ receiver))
    · cases receiver
  have invoked :=
    safe_invokeChosen safe sound₄ proxy (code.grow (grows₃.trans grows₄)) held fitting.knows
  refine (Meets.mapError invoked _).bind ?_
  intro result w₅ sound₅ _ known
  exact Marshal.safe_toScript sound₅ known

theorem accessibleField_ok {r : Registry} {type : TypeId} {name : String} {f : Field}
    (found : accessibleField r type name = .ok f) : r.field? type name = some f := by
  unfold accessibleField at found
  split at found
  · cases found
  · next there =>
    split at found
    · cases found
      exact there
    · cases found

theorem safe_getField (sound : w.Sound) (proxy : Proxy) (name : String) :
    Safe (getField proxy name) (fun _ _ => True) w := by
  refine .get (.ofExcept sound fun f found => ?_)
  obtain ⟨_, t, listed, declared⟩ := Registry.field?_declared (accessibleField_ok found)
  obtain ⟨j, there, _⟩ := (Registry.mem_searchOrder sound.registry).mp listed
  have default : w.heap.Knows f.default := by
    refine sound.code there f.default ?_
    simp only [TypeInfo.values, List.mem_append, List.mem_map]
    exact Or.inr ⟨f, declared, rfl⟩
  refine (Meets.mapError (Invoke.safe_getField sound default) _).bind ?_
  intro value w₁ sound₁ _ known
  exact Marshal.safe_toScript sound₁ known

theorem safe_setField (sound : w.Sound) (proxy : Proxy) (name : String) (value : ScriptValue) :
    Safe (setField proxy name value) (fun _ _ => True) w := by
  refine .get (.ofExcept sound fun f _ => ?_)
  refine (Marshal.safe_unwrap value sound).bind ?_
  intro unwrapped w₁ sound₁ _ passable
  refine (Marshal.safe_convert sound₁ passable.1 f.type).bind ?_
  intro converted w₂ sound₂ _ fitting
  exact Meets.mapError (Invoke.safe_setField f sound₂ fitting.1) _

end Proxy

namespace ClassHandle

theorem safe_construct (safe : run.Safe) (sound : w.Sound) (handle : ClassHandle)
    (args : List ScriptValue) (handler : Option Handler) :
    Safe (handle.construct run args handler) (fun w' ref => w'.heap.Holds ref) w := by
  refine (Marshal.safe_unwrapAll args sound).bind ?_
  intro args w₁ sound₁ _ passable
  refine (Proxy.safe_chooseConstructor sound₁ handle.type args).bind ?_
  intro c w₂ sound₂ grows₂ declared
  have known : ∀ v ∈ args, w₂.heap.Knows v := fun v member => grows₂.knows (passable v member).1
  refine (Marshal.safe_convertArguments sound₂ known c.params c.variadic).bind ?_
  intro converted w₃ sound₃ grows₃ fitting
  obtain ⟨t, found, member⟩ := declared
  exact .get (Meets.mapError
    (Invoke.safe_construct safe sound₃ ⟨t, grows₃.registry found, member⟩ fitting.knows) _)

theorem safe_constructBound (safe : run.Safe) (sound : w.Sound) (handle : ClassHandle)
    (overrides : Overrides) (args : List ScriptValue) :
    Safe (handle.constructBound run overrides args) (fun _ _ => True) w := by
  refine (Task.safe_emit sound _).bind ?_
  intro _ w₁ sound₁ _ _
  refine .get (.set (sound₁.unaffected rfl rfl rfl rfl rfl) fun sound₂ _ => ?_)
  refine (safe_construct safe sound₂ handle args _).bind ?_
  intro object w₃ sound₃ _ held
  refine (Task.safe_wrapObject sound₃ held).bind ?_
  intro id w₄ sound₄ _ _
  refine Meets.modified (sound₄.unaffected rfl rfl rfl rfl rfl) fun sound₅ _ => ?_
  exact .pure sound₅ trivial

theorem safe_newInstance (safe : run.Safe) (sound : w.Sound) (handle : ClassHandle)
    (args : List ScriptValue) :
    Safe (handle.newInstance run args) (fun _ _ => True) w := by
  unfold newInstance
  split
  · refine (safe_construct safe sound handle _ none).bind ?_
    intro object w₁ sound₁ _ held
    exact Task.safe_wrapObject sound₁ held
  · exact safe_constructBound safe sound handle _ _
  · split
    · exact .ofExcept sound fun overrides _ => safe_constructBound safe sound handle overrides []
    · exact .throw sound _

theorem safe_newInstanceWithOverrides (safe : run.Safe) (sound : w.Sound) (handle : ClassHandle)
    (overrides : ScriptValue) (args : List ScriptValue) :
    Safe (handle.newInstanceWithOverrides run overrides args) (fun _ _ => True) w := by
  unfold newInstanceWithOverrides
  refine .guard sound fun _ => ?_
  split
  · exact .throw sound _
  · exact .ofExcept sound fun overrides _ => safe_constructBound safe sound handle overrides _

end ClassHandle

namespace HandleId

theorem safe_cast (sound : w.Sound) (id : HandleId) (type : TypeId) :
    Safe (id.cast type) (fun _ _ => True) w := by
  refine .get ?_
  split
  · exact .pure sound trivial
  · next handle found =>
    refine .guard sound fun assignable => ?_
    have evolves : w.handles.Evolves w.Shows (w.handles.setView id type) := by
      refine HandleTable.evolves_update id (fun _ => rfl) ?_
      intro h there shown
      cases found.symm.trans there
      exact ⟨shown.1, by simpa using assignable⟩
    refine .set (sound.withHandles evolves (HandleTable.used_apply _ (.setView id type)))
      fun sound₁ _ => ?_
    refine (Task.safe_emit sound₁ _).bind ?_
    intro _ w₂ sound₂ _ _
    exact .pure sound₂ trivial

theorem safe_isInstanceOf {ε : Type} (sound : w.Sound) (id : HandleId) (name : String) :
    Safe (id.isInstanceOf name : Task ε Bool) (fun _ _ => True) w := by
  refine .get ?_
  split
  · exact .pure sound trivial
  · split
    · exact .pure sound trivial
    · refine (Task.safe_lookupType sound name).bind ?_
      intro found w₁ sound₁ _ _
      split
      · exact .get (.pure sound₁ trivial)
      · refine (Task.safe_emit sound₁ _).bind ?_
        intro _ w₂ sound₂ _ _
        exact .pure sound₂ trivial

theorem safe_setOverrides (sound : w.Sound) (id : HandleId) (overrides : ScriptValue) :
    Safe (id.setOverrides overrides) (fun _ _ => True) w := by
  refine .get ?_
  split
  · exact .throw sound _
  · split
    · exact .throw sound _
    · refine .ofExcept sound fun overrides _ => ?_
      exact .modify (sound.unaffected rfl rfl rfl rfl rfl) trivial

theorem safe_release {ε : Type} (sound : w.Sound) (id : HandleId) :
    Safe (id.release : Task ε Unit) (fun _ _ => True) w :=
  .modify (sound.withHandles (HandleTable.evolves_forget id)
    (HandleTable.used_apply _ (.operate (.release id)))) trivial

end HandleId

namespace Bridge

theorem safe_checkRegistered (sound : w.Sound) : Safe checkRegistered (fun _ _ => True) w := by
  refine .get ?_
  split
  · exact .throw sound _
  · exact .pure sound trivial

theorem safe_requireType (sound : w.Sound) (name : String) :
    Safe (requireType name) (fun _ _ => True) w := by
  unfold requireType
  refine .guard sound fun _ => ?_
  refine (Task.safe_lookupType sound name).bind ?_
  intro found w₁ sound₁ _ _
  split
  · exact .pure sound₁ trivial
  · exact .throw sound₁ _

theorem safe_getClass (sound : w.Sound) (name : String) :
    Safe (getClass name) (fun _ _ => True) w := by
  refine (safe_checkRegistered sound).bind ?_
  intro _ w₁ sound₁ _ _
  refine .get ?_
  split
  · refine .set (sound₁.unaffected rfl rfl rfl rfl rfl) fun sound₂ _ => ?_
    refine (Task.safe_emit sound₂ _).bind ?_
    intro _ w₃ sound₃ _ _
    exact .pure sound₃ trivial
  · refine (safe_requireType sound₁ name).bind ?_
    intro type w₂ sound₂ _ _
    refine .get ((Task.safe_addClass sound₂ _).bind ?_)
    intro id w₃ sound₃ _ _
    refine (Task.safe_emit sound₃ _).bind ?_
    intro _ w₄ sound₄ _ _
    refine .get (.set (sound₄.unaffected rfl rfl rfl rfl rfl) fun sound₅ _ => ?_)
    split
    · refine (Task.safe_emit sound₅ _).bind ?_
      intro _ w₆ sound₆ _ _
      exact .pure sound₆ trivial
    · exact .pure sound₅ trivial

/-- A registry operation that reports events, such as the making of a generated type. -/
theorem safe_onRegistryNoted
    {operation : Registry → EStateM.Result NativeError Registry TypeId × List Event}
    (updated : ∀ {r}, r = stateAfter (operation w.registry).1 →
      World.Sound { w with registry := r } ∧ w.Grows { w with registry := r }) :
    Safe (Task.onRegistryNoted operation) (fun _ _ => True) w := by
  unfold Safe Meets Task.onRegistryNoted
  generalize operation w.registry = result at updated
  obtain ⟨result, events⟩ := result
  obtain ⟨sound, grows⟩ := updated rfl
  have noted :
      World.Sound { w with registry := stateAfter result, events := w.events ++ events } ∧ _ :=
    sound.unaffected rfl rfl rfl rfl rfl
  cases result with
  | ok id r => exact ⟨noted.1, grows.trans noted.2, trivial⟩
  | error e r => exact ⟨noted.1, grows.trans noted.2⟩

theorem safe_generateSubclass (sound : w.Sound) (base : TypeId) :
    Safe (Task.onRegistryNoted (Registry.generateSubclass base)) (fun _ _ => True) w := by
  apply safe_onRegistryNoted
  rintro r rfl
  have outcome := Registry.generateSubclass_outcome w.registry base
  obtain ⟨settled, larger⟩ := outcome.settled sound.registry
  exact sound.withGenerated settled larger (outcome.code sound.registry.coherent)

theorem safe_generateImplementation (sound : w.Sound) (interface : TypeId) :
    Safe (Task.onRegistryNoted (Registry.generateImplementation interface))
    (fun _ _ => True) w := by
  apply safe_onRegistryNoted
  rintro r rfl
  have outcome := Registry.generateImplementation_outcome w.registry interface
  obtain ⟨settled, larger⟩ := outcome.settled sound.registry
  exact sound.withGenerated settled larger (outcome.code sound.registry.coherent)

theorem safe_extend (sound : w.Sound) (name : String) : Safe (extend name) (fun _ _ => True) w := by
  refine (safe_checkRegistered sound).bind ?_
  intro _ w₁ sound₁ _ _
  refine (safe_requireType sound₁ name).bind ?_
  intro type w₂ sound₂ _ _
  refine .get (.guard sound₂ fun _ => ?_)
  refine (Meets.mapError (safe_generateSubclass sound₂ type) _).bind ?_
  intro generated w₃ sound₃ _ _
  exact Task.safe_addClass sound₃ _

theorem safe_implement (sound : w.Sound) (name : String) :
    Safe (implement name) (fun _ _ => True) w := by
  refine (safe_checkRegistered sound).bind ?_
  intro _ w₁ sound₁ _ _
  refine (safe_requireType sound₁ name).bind ?_
  intro type w₂ sound₂ _ _
  refine .get (.guard sound₂ fun _ => ?_)
  refine (Meets.mapError (safe_generateImplementation sound₂ type) _).bind ?_
  intro generated w₃ sound₃ _ _
  exact Task.safe_addClass sound₃ _

theorem safe_cast (sound : w.Sound) (name : String) (value : ScriptValue) :
    Safe (cast name value) (fun _ _ => True) w := by
  refine (safe_checkRegistered sound).bind ?_
  intro _ w₁ sound₁ _ _
  split
  · exact .throw sound₁ _
  · next id _ =>
    refine (safe_requireType sound₁ name).bind ?_
    intro type w₂ sound₂ _ _
    exact HandleId.safe_cast sound₂ id type

theorem safe_wrap (sound : w.Sound) (known : w.heap.Knows v) :
    Safe (wrap v) (fun _ _ => True) w := by
  refine (safe_checkRegistered sound).bind ?_
  intro _ w₁ sound₁ grows₁ _
  exact Marshal.safe_toScript sound₁ (grows₁.knows known)

end Bridge

end Interop
