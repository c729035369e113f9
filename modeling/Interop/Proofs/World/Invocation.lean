import Interop.Invoke
import Interop.Proofs.Marshal.Conversion
import Interop.Proofs.World.Evaluation

/-!
Construction and invocation keep the world sound, if running code does. Whatever is invoked is code
of a type, so the values in it are known, and the implementation that dispatch finds is code of a
type, too.
-/
namespace Interop

open Interop.Task (Meets Safe)

variable {w w' : World} {v : Value}

/-- Results that lead to objects. -/
def Known (w : World) (v : Value) : Prop := w.heap.Knows v

/-- Receiver and arguments lead to objects. -/
abbrev Frame.Known (frame : Frame) (w : World) : Prop := frame.Fits Interop.Known w

theorem Frame.Known.grow {frame : Frame} (known : frame.Known w) (grows : w.Grows w') :
    frame.Known w' :=
  ⟨fun receiver => grows.knows (known.receiver receiver),
    fun v member => grows.knows (known.args v member)⟩

/-- Running code keeps the world sound: native code whose values are known, and every script
function. -/
structure Runner.Safe (run : Runner) : Prop where
  native : ∀ {code frame w}, w.Sound → (∀ v ∈ code.values, w.heap.Knows v) → frame.Known w →
    Task.Safe (run.native code frame) Known w
  script : ∀ {id this args w}, w.Sound → Task.Safe (run.script id this args) (fun _ _ => True) w

/-- The values in the code of a method are known. -/
def Method.Known (m : Method) (w : World) : Prop := ∀ v ∈ m.values, w.heap.Knows v

theorem Method.Known.grow {m : Method} (known : m.Known w) (grows : w.Grows w') : m.Known w' :=
  fun v member => grows.knows (known v member)

theorem World.Sound.method {m : Method} {t : TypeInfo} {i : TypeId} (sound : w.Sound)
    (listed : t ∈ w.registry.searchOrder i) (declared : m ∈ t.methods) : m.Known w := by
  obtain ⟨j, found, _⟩ := (Registry.mem_searchOrder sound.registry).mp listed
  intro v member
  refine sound.code found v ?_
  simp only [TypeInfo.values, List.mem_append, List.mem_flatMap]
  exact Or.inl (Or.inl ⟨m, declared, member⟩)

theorem World.Sound.method_of_mem {m : Method} {i : TypeId} (sound : w.Sound)
    (member : m ∈ w.registry.allMethods i) :
    m.Known w := by
  obtain ⟨t, listed, declared⟩ := Registry.mem_allMethods member
  exact sound.method listed declared

theorem World.Sound.implementation {m m' : Method} {cls : TypeId} (sound : w.Sound)
    (found : w.registry.implementation? cls m = some m') : m'.Known w := by
  obtain ⟨t, listed, chosen⟩ := List.exists_of_findSome?_eq_some found
  exact sound.method listed (List.mem_of_find?_eq_some chosen)

/-- A constructor that its class declares. -/
def Constructor.Declared (c : Constructor) (r : Registry) : Prop :=
  ∃ t, r.get? c.declaring = some t ∧ c ∈ t.constructors

theorem Constructor.declared_of_mem {r : Registry} {c : Constructor} {cls : TypeId}
    (settled : r.Settled) (member : c ∈ r.constructors cls) : c.Declared r := by
  unfold Registry.constructors at member
  split at member
  · next t found =>
    have declared := (List.mem_filter.mp member).1
    refine ⟨t, ?_, declared⟩
    rw [(settled.coherent.fits found).own_constructors c declared, settled.coherent.ids found]
    exact found
  · cases member

namespace Invoke

variable {run : Runner} {m : Method} {args : List Value}

theorem safe_runBody {body : Body} {frame : Frame} (safe : run.Safe) (sound : w.Sound)
    (code : ∀ v ∈ body.values, w.heap.Knows v) (known : frame.Known w) :
    Safe (runBody run body frame) Known w := by
  cases body with
  | code c => exact safe.native sound code known
  | identityEquals =>
    refine .ofExcept sound fun this _ => ?_
    exact .ofExcept sound fun other _ => .pure sound trivial
  | identityHash => exact .ofExcept sound fun this _ => .pure sound trivial
  | identityText => exact .ofExcept sound fun this _ => .get (.pure sound trivial)

theorem safe_runMethod {receiver : Option ObjectRef} (safe : run.Safe) (sound : w.Sound)
    (code : m.Known w)
    (known : Frame.Known ⟨receiver, args⟩ w) : Safe (runMethod run m receiver args) Known w := by
  unfold runMethod
  cases body : m.body with
  | none => exact .get (.throw sound _)
  | some b =>
    have values : ∀ v ∈ b.values, w.heap.Knows v := by
      intro v member
      refine code v ?_
      simpa [Method.values, body] using member
    refine (safe_runBody safe sound values known).bind ?_
    intro result w₁ sound₁ _ known₁
    refine .pure sound₁ ?_
    split
    · trivial
    · exact known₁

theorem safe_invokeDirect {receiver : ObjectRef} (safe : run.Safe) (sound : w.Sound)
    (code : m.Known w) (held : w.heap.Holds receiver) (known : ∀ v ∈ args, w.heap.Knows v) :
    Safe (invokeDirect run m receiver args) Known w := by
  have frame : Frame.Known ⟨some receiver, args⟩ w :=
    ⟨fun same => Option.some.inj same ▸ held, known⟩
  refine .get (safe_runMethod safe sound ?_ frame)
  cases found : w.registry.implementation? receiver.cls m with
  | none => exact code
  | some m' => exact sound.implementation found

theorem safe_withAbstractDefault {task : Task NativeError Value} (m : Method)
    (safe : Safe task Known w) :
    Safe (withAbstractDefault m task) Known w := by
  refine (Meets.outcome safe).bind ?_
  intro result w₁ sound₁ _ known
  refine .get ?_
  have answer : ∀ v, abstractDefault w₁.registry m result = .ok v → Known w₁ v := by
    intro v given
    unfold abstractDefault at given
    split at given
    · split at given
      · cases given
        trivial
      · split at given
        · cases given
          trivial
        · cases given
    · exact known v given
  cases given : abstractDefault w₁.registry m result with
  | error e => exact .throw sound₁ e
  | ok v => exact .pure sound₁ (answer v given)

theorem known_identityAnswer {dispatcher : DispatcherId} {receiver : ObjectRef}
    (given : identityAnswer? w dispatcher receiver m args = some v) : Known w v := by
  unfold identityAnswer? at given
  split at given
  · cases given
  · split at given
    · cases given
      trivial
    · cases given
      trivial
    · cases given
      trivial
    · cases given

theorem sound_hold (sound : w.Sound) (value : ScriptValue) :
    (w.hold value).Sound ∧ w.Grows (w.hold value) := by
  have kept : w.handles.Evolves w.Shows (w.retainAll value.handles).handles :=
    HandleTable.evolves_foldl (fun _ id => HandleTable.evolves_retain id) value.handles _
  obtain ⟨sound', grows⟩ := sound.withHandles kept (HandleTable.used_retainAll value.handles _)
  have held : (w.hold value).Sound ∧ _ := sound'.unaffected rfl rfl rfl rfl rfl
  exact ⟨held.1, grows.trans held.2⟩

theorem safe_receiverHandle {ε : Type} {receiver : ObjectRef} (dispatcher : DispatcherId)
    (sound : w.Sound) (held : w.heap.Holds receiver) :
    Safe (receiverHandle dispatcher receiver : Task ε HandleId) (fun _ _ => True) w := by
  refine .get ?_
  split
  · split
    · exact .set (sound_hold sound _) fun sound₁ _ => .pure sound₁ trivial
    · exact Task.safe_wrapObject sound held
  · exact Task.safe_wrapObject sound held

/-- What an override answers is of the type that the method declares. -/
theorem safe_callOverride {receiver : ObjectRef} (safe : run.Safe) (sound : w.Sound)
    (dispatcher : DispatcherId)
    (m : Method) (function : FunctionId) (held : w.heap.Holds receiver)
    (known : ∀ v ∈ args, w.heap.Knows v) :
    Safe (callOverride run dispatcher receiver m function args) (fun w' v =>
      Known w' v ∧ (m.returns ≠ .void → w'.registry.accepts m.returns v = true)) w := by
  refine Safe.scoped sound (fun _ holds _ => holds) ?_
  intro w₀ sound₀ grows₀
  refine (safe_receiverHandle dispatcher sound₀ (grows₀.heap held)).bind ?_
  intro this w₁ sound₁ grows₁ _
  refine (Marshal.safe_toScriptAll sound₁
    (fun v member => grows₁.knows (grows₀.knows (known v member)))).bind ?_
  intro scriptArgs w₂ sound₂ _ _
  refine (Meets.mapError (safe.script sound₂) _).bind ?_
  intro result w₃ sound₃ _ _
  split
  · next void => exact .pure sound₃ ⟨trivial, fun answers => absurd void answers⟩
  · refine Meets.mapError ?_ _
    refine (Marshal.safe_unwrap result sound₃).bind ?_
    intro value w₄ sound₄ _ passable
    refine (Marshal.safe_convert sound₄ passable.1 m.returns).mono ?_
    intro w' v _ _ fitting
    exact ⟨fitting.1, fun _ => fitting.2⟩

theorem safe_invokeOverridden {receiver : ObjectRef} (safe : run.Safe) (sound : w.Sound)
    (dispatcher : DispatcherId)
    (code : m.Known w) (held : w.heap.Holds receiver) (known : ∀ v ∈ args, w.heap.Knows v) :
    Safe (invokeOverridden run dispatcher receiver m args) Known w := by
  refine .get ?_
  split
  · next answer => exact .pure sound (known_identityAnswer answer)
  · dsimp only
    split
    · refine (Task.safe_emit sound _).bind ?_
      intro _ w₁ sound₁ grows₁ _
      refine (safe_callOverride safe sound₁ dispatcher m _ (grows₁.heap held)
        (fun v member => grows₁.knows (known v member))).mono ?_
      exact fun _ _ answered => answered.1
    · exact safe_withAbstractDefault m (safe_invokeDirect safe sound code held known)

theorem safe_dispatch {receiver : Option ObjectRef} (safe : run.Safe) (sound : w.Sound)
    (throughHandler : Bool)
    (code : m.Known w) (held : ∀ {ref}, receiver = some ref → w.heap.Holds ref)
    (known : ∀ v ∈ args, w.heap.Knows v) :
    Safe (dispatch run throughHandler m receiver args) Known w := by
  refine .get (.ofExcept sound fun _ _ => ?_)
  split
  · exact safe_runMethod safe sound code ⟨nofun, known⟩
  · split
    · exact .throw sound _
    · next object =>
      refine .guard sound fun _ => ?_
      dsimp only
      generalize (if throughHandler && !m.isFinal then w.heap.handler? object else none) = handler
      split
      · exact safe_invokeOverridden safe sound _ code (held rfl) known
      · refine (Task.safe_logEntry sound _).bind ?_
        intro _ w₁ sound₁ grows₁ _
        exact safe_invokeDirect safe sound₁ (code.grow grows₁) (grows₁.heap (held rfl))
          (fun v member => grows₁.knows (known v member))
      · exact safe_invokeDirect safe sound code (held rfl) known

theorem safe_invokeSuper {receiver : Option ObjectRef} (safe : run.Safe) (sound : w.Sound)
    (code : m.Known w)
    (held : ∀ {ref}, receiver = some ref → w.heap.Holds ref) (known : ∀ v ∈ args, w.heap.Knows v) :
    Safe (invokeSuper run m receiver args) Known w := by
  refine (Task.safe_emit sound _).bind ?_
  intro _ w₁ sound₁ grows₁ _
  exact safe_withAbstractDefault m (safe_dispatch safe sound₁ false (code.grow grows₁)
    (fun same => grows₁.heap (held same)) (fun v member => grows₁.knows (known v member)))

theorem safe_invokeVirtual {receiver : ObjectRef} (safe : run.Safe) (sound : w.Sound)
    (name : String) (held : w.heap.Holds receiver) (known : ∀ v ∈ args, w.heap.Knows v) :
    Safe (invokeVirtual run receiver name args) Known w := by
  refine .get ?_
  split
  · next m found =>
    refine safe_dispatch safe sound true
      (sound.method_of_mem (List.mem_of_find?_eq_some found)) ?_ known
    intro ref same
    exact Option.some.inj same ▸ held
  · exact .throw sound _

/-- The values that a fresh instance starts with stand in its type or in a supertype. -/
theorem typed_fresh {t : TypeInfo} {handler : Option Handler} (sound : w.Sound)
    (found : w.registry.get? t.id = some t)
    (isClass : t.isClass = true) (notBoxed : t.id.unboxedKind? = none) :
    Object.Typed w.registry w.heap ⟨t.id, .fields (w.registry.instanceDefaults t.id), handler⟩ := by
  refine ⟨⟨t, found, isClass⟩, notBoxed, ?_, ?_⟩
  · intro u listed f declared onInstance
    exact Registry.instanceDefaults_complete listed declared onInstance
  · intro entry member
    obtain ⟨u, listed, f, declared, _, rfl⟩ := Registry.instanceDefaults_source member
    obtain ⟨j, there, _⟩ := (Registry.mem_searchOrder sound.registry).mp listed
    refine sound.code there f.default ?_
    simp only [TypeInfo.values, List.mem_append, List.mem_map]
    exact Or.inr ⟨f, declared, rfl⟩

theorem safe_construct {c : Constructor} {handler : Option Handler} (safe : run.Safe)
    (sound : w.Sound) (declared : c.Declared w.registry) (known : ∀ v ∈ args, w.heap.Knows v) :
    Safe (construct run c args handler) (fun w' ref => w'.heap.Holds ref) w := by
  obtain ⟨t, found, member⟩ := declared
  have id := sound.registry.coherent.ids found
  have code : ∀ v ∈ c.values, w.heap.Knows v := by
    intro v inBody
    refine sound.code found v ?_
    simp only [TypeInfo.values, List.mem_append, List.mem_flatMap]
    exact Or.inl (Or.inr ⟨c, member, inBody⟩)
  have notBoxed : t.id.unboxedKind? = none := by
    rw [Option.eq_none_iff_forall_ne_some]
    intro kind boxed
    obtain ⟨u, first, same, _, bare⟩ := Registry.unboxedKind?_first boxed
    have there := (sound.registry.coherent.first first).1
    rw [same, id, found] at there
    cases there
    rw [bare] at member
    cases member
  refine .get (.ofExcept sound fun u required => ?_)
  cases found.symm.trans (Registry.require_ok required)
  refine .guard sound fun concrete => ?_
  have isClass : t.isClass = true := by
    cases isClass : t.isClass with
    | true => rfl
    | false => simp [isClass] at concrete
  refine .ofExcept sound fun _ _ => ?_
  refine .set (sound.alloc (typed_fresh sound (id.symm ▸ found) isClass notBoxed)) ?_
  intro sound₁ grows₁
  have held := Heap.holds_alloc w.heap ⟨t.id, .fields (w.registry.instanceDefaults t.id), handler⟩
  cases body : c.body with
  | none =>
    refine (Task.safe_emit sound₁ _).bind ?_
    intro _ w₂ sound₂ grows₂ _
    exact .pure sound₂ (grows₂.heap held)
  | some b =>
    have values : ∀ v ∈ b.values, w.heap.Knows v := by
      intro v inBody
      exact code v (by simpa [Constructor.values, body] using inBody)
    refine (safe.native sound₁ (fun v inBody => grows₁.knows (values v inBody)) ?_).bind ?_
    · exact ⟨fun same => Option.some.inj same ▸ held, fun v given => grows₁.knows (known v given)⟩
    · intro _ w₂ sound₂ grows₂ _
      refine (Task.safe_emit sound₂ _).bind ?_
      intro _ w₃ sound₃ grows₃ _
      exact .pure sound₃ (grows₃.heap (grows₂.heap held))

theorem safe_getField {f : Field} {receiver : Option ObjectRef} (sound : w.Sound)
    (default : w.heap.Knows f.default) :
    Safe (getField f receiver) Known w := by
  refine .get ?_
  split
  · refine .ofExcept sound fun owner required => .pure sound ?_
    cases written : w.heap.static? f.declaring f.name with
    | some v => exact sound.statics _ (mem_of_lookup written)
    | none =>
      cases first : owner.initialStatic? f.name with
      | none => exact default
      | some v =>
        obtain ⟨g, chosen, rfl⟩ := Option.map_eq_some_iff.mp first
        have declared := List.mem_reverse.mp (List.mem_of_find?_eq_some chosen)
        refine sound.code (Registry.require_ok required) g.default ?_
        simp only [TypeInfo.values, List.mem_append, List.mem_map]
        exact Or.inr ⟨g, declared, rfl⟩
  · split
    · exact .throw sound _
    · split
      · next found => exact .pure sound (sound.field found)
      · exact .throw sound _

theorem safe_setField {receiver : Option ObjectRef} (f : Field) (sound : w.Sound)
    (known : w.heap.Knows v) :
    Safe (setField f receiver v) (fun _ _ => True) w := by
  refine .get (.guard sound fun _ => .guard sound fun _ => ?_)
  split
  · refine .ofExcept sound fun _ _ => ?_
    exact .store (sound.setStatic f.declaring f.name known) trivial
  · split
    · exact .throw sound _
    · split
      · next written => exact .store (sound.setField known written) trivial
      · exact .throw sound _

theorem safe_storeElement {array : ObjectRef} {index : Nat} (sound : w.Sound)
    (held : w.heap.Holds array)
    (known : w.heap.Knows v) : Safe (storeElement array index v) (fun _ _ => True) w := by
  refine .get ?_
  split
  · exact .throw sound _
  · next c component =>
    refine .guard sound fun accepted => ?_
    split
    · next written =>
      exact .store (sound.setElement held component known (by simpa using accepted) written) trivial
    · exact .throw sound _

end Invoke

end Interop
