import Mathlib.Order.Defs.Unbundled
import Interop.Marshal.Inward
import Interop.Marshal.Outward
import Interop.Proofs.World.Updates

/-!
Tasks that keep the world sound. `Meets` says of one task in one world that it leads to a good world
in a relation of worlds, whatever is good and whatever the relation, together with what holds of its
result; the rules below take a task apart as it was put together. `Safe` is the case of soundness
and growth, and the last lemmas give what each of the basic tasks does in it.
-/
namespace Interop.Task

variable {ε ε' α β : Type} {I : World → Prop} {R : World → World → Prop} {w w' : World}
  {post : World → α → Prop}

/-- How a task ends: with a value or an error, and in a world. -/
abbrev Outcome (ε α : Type) := EStateM.Result ε World α

/-- Whether it succeeds or fails, the task leads to a good world that the first one is related to,
and a result is as `post` says. -/
def Meets (I : World → Prop) (R : World → World → Prop) (task : Task ε α)
    (post : World → α → Prop) (w : World) : Prop :=
  match task w with
  | .ok value w' => I w' ∧ R w w' ∧ post w' value
  | .error _ w' => I w' ∧ R w w'

instance : IsPreorder World World.Grows where
  refl := World.Grows.refl
  trans _ _ _ := World.Grows.trans

/-- Whether it succeeds or fails, the task leaves a sound world that has only grown, and a result is
as `post` says. -/
abbrev Safe (task : Task ε α) (post : World → α → Prop) (w : World) : Prop :=
  task.Meets World.Sound World.Grows post w

theorem Meets.ok {task : Task ε α} {value : α} (meets : task.Meets I R post w)
    (success : task w = .ok value w') : I w' ∧ R w w' ∧ post w' value := by
  unfold Meets at meets
  rwa [success] at meets

theorem Meets.state {task : Task ε α} (meets : task.Meets I R post w) :
    I (stateAfter (task w)) ∧ R w (stateAfter (task w)) := by
  unfold Meets at meets
  cases result : task w with
  | ok value w' =>
    rw [result] at meets
    exact ⟨meets.1, meets.2.1⟩
  | error e w' =>
    rw [result] at meets
    exact meets

theorem Meets.mono {task : Task ε α} {post' : World → α → Prop} (meets : task.Meets I R post w)
    (weaker : ∀ {w' a}, I w' → R w w' → post w' a → post' w' a) : task.Meets I R post' w := by
  unfold Meets at meets ⊢
  split
  · next result =>
    rw [result] at meets
    exact ⟨meets.1, meets.2.1, weaker meets.1 meets.2.1 meets.2.2⟩
  · next result =>
    rw [result] at meets
    exact meets

theorem Meets.get {next : World → Task ε α} (rest : (next w).Meets I R post w) :
    (MonadState.get >>= next).Meets I R post w :=
  rest

theorem Meets.store {post : World → PUnit → Prop} (updated : I w' ∧ R w w') (holds : post w' ⟨⟩) :
    (MonadStateOf.set w' : Task ε PUnit).Meets I R post w :=
  ⟨updated.1, updated.2, holds⟩

theorem Meets.mapError {task : Task ε α} (meets : task.Meets I R post w) (f : ε → ε') :
    (task.mapError f).Meets I R post w := by
  unfold Meets Task.mapError at *
  cases result : task w with
  | ok value w' =>
    rw [result] at meets
    exact meets
  | error e w' =>
    rw [result] at meets
    exact meets

theorem Meets.outcome {task : Task ε α} (meets : task.Meets I R post w) :
    (task.outcome : Task ε' (Except ε α)).Meets I R
      (fun w' result => ∀ a, result = .ok a → post w' a) w := by
  unfold Meets Task.outcome at *
  cases result : task w with
  | ok value w' =>
    rw [result] at meets
    refine ⟨meets.1, meets.2.1, ?_⟩
    rintro a ⟨⟩
    exact meets.2.2
  | error e w' =>
    rw [result] at meets
    exact ⟨meets.1, meets.2, nofun⟩

section

variable [IsPreorder World R]

theorem Meets.pure {a : α} (good : I w) (holds : post w a) :
    (Pure.pure a : Task ε α).Meets I R post w :=
  ⟨good, refl_of R w, holds⟩

theorem Meets.throw (good : I w) (e : ε) : (MonadExcept.throw e : Task ε α).Meets I R post w :=
  ⟨good, refl_of R w⟩

theorem Meets.bind {task : Task ε β} {next : β → Task ε α} {mid : World → β → Prop}
    (first : task.Meets I R mid w)
    (rest : ∀ b w', I w' → R w w' → mid w' b → (next b).Meets I R post w') :
    (task >>= next).Meets I R post w := by
  unfold Meets at first ⊢
  change match EStateM.bind task next w with | .ok _ _ => _ | .error _ _ => _
  unfold EStateM.bind
  cases result : task w with
  | error e w' =>
    rw [result] at first
    exact first
  | ok b w' =>
    rw [result] at first
    obtain ⟨good, related, holds⟩ := first
    have later := rest b w' good related holds
    unfold Meets at later
    dsimp only
    cases result' : next b w' with
    | error e w'' =>
      rw [result'] at later
      exact ⟨later.1, trans_of R related later.2⟩
    | ok a w'' =>
      rw [result'] at later
      exact ⟨later.1, trans_of R related later.2.1, later.2.2⟩

theorem Meets.set {next : PUnit → Task ε α} (updated : I w' ∧ R w w')
    (rest : I w' → R w w' → (next ⟨⟩).Meets I R post w') :
    (MonadStateOf.set w' >>= next).Meets I R post w := by
  have stored : (MonadStateOf.set w' : Task ε PUnit).Meets I R (fun after _ => after = w') w :=
    .store updated rfl
  refine stored.bind ?_
  rintro _ _ good related rfl
  exact rest good related

theorem Meets.modified {f : World → World} {next : PUnit → Task ε α}
    (updated : I (f w) ∧ R w (f w))
    (rest : I (f w) → R w (f w) → (next ⟨⟩).Meets I R post (f w)) :
    ((modify f : Task ε PUnit) >>= next).Meets I R post w :=
  Meets.set updated rest

theorem Meets.ofExcept {result : Except ε β} {next : β → Task ε α} (good : I w)
    (rest : ∀ b, result = .ok b → (next b).Meets I R post w) :
    (Task.ofExcept result >>= next).Meets I R post w := by
  cases result with
  | error e => exact ⟨good, refl_of R w⟩
  | ok b => exact rest b rfl

theorem Meets.result {result : Except ε α} (good : I w) (holds : ∀ a, result = .ok a → post w a) :
    (Task.ofExcept result).Meets I R post w := by
  cases result with
  | error e => exact ⟨good, refl_of R w⟩
  | ok a => exact ⟨good, refl_of R w, holds a rfl⟩

/-- A check that only throws. -/
theorem Meets.guard {bad : Prop} [Decidable bad] {e : ε} {next : PUnit → Task ε α} (good : I w)
    (rest : ¬bad → (next ⟨⟩).Meets I R post w) :
    (if bad then MonadExcept.throw e >>= next else next ⟨⟩ : Task ε α).Meets I R post w := by
  split
  · exact ⟨good, refl_of R w⟩
  · next passed => exact rest passed

/-- A scope around a task. What holds of its result has to outlast the end of the scope. -/
theorem Meets.inScope {task : Task ε α} {kept : α → List HandleId}
    (opened : I { w with held := [] } ∧ R w { w with held := [] })
    (ended : ∀ {after} result, I after →
      I (after.endScope w.held result) ∧ R after (after.endScope w.held result))
    (lasting : ∀ {after a} result, I after → post after a → post (after.endScope w.held result) a)
    (meets : task.Meets I R post { w with held := [] }) :
    (task.inScope kept).Meets I R post w := by
  unfold Meets Task.inScope at *
  cases result : task { w with held := [] } with
  | ok value after =>
    rw [result] at meets
    obtain ⟨good, related, holds⟩ := meets
    obtain ⟨goodEnd, relatedEnd⟩ := ended (kept value) good
    exact ⟨goodEnd, trans_of R (trans_of R opened.2 related) relatedEnd, lasting _ good holds⟩
  | error e after =>
    rw [result] at meets
    obtain ⟨goodEnd, relatedEnd⟩ := ended [] meets.1
    exact ⟨goodEnd, trans_of R (trans_of R opened.2 meets.2) relatedEnd⟩

end

theorem Meets.modify {f : World → World} {post : World → PUnit → Prop}
    (updated : I (f w) ∧ R w (f w)) (holds : post (f w) ⟨⟩) :
    (modify f : Task ε PUnit).Meets I R post w :=
  ⟨updated.1, updated.2, holds⟩

/-- A task that first reads the world. -/
theorem get_bind (next : World → Task ε α) (w : World) :
    ((MonadState.get : Task ε World) >>= next) w = next w w := rfl

/-- A task goes on where its first part has ended. -/
theorem bind_ok {task : Task ε β} {b : β} (done : task w = .ok b w') (next : β → Task ε α) :
    (task >>= next) w = next b w' := by
  change EStateM.bind task next w = _
  unfold EStateM.bind
  rw [done]

/-- A task ends where its first part fails. -/
theorem bind_error {task : Task ε β} {e : ε} (failed : task w = .error e w')
    (next : β → Task ε α) : (task >>= next) w = .error e w' := by
  change EStateM.bind task next w = _
  unfold EStateM.bind
  rw [failed]

/-- A task that succeeds has done so in both of its parts. -/
theorem of_bind_ok {task : Task ε β} {next : β → Task ε α} {a : α}
    (success : (task >>= next) w = .ok a w') :
    ∃ b w₁, task w = .ok b w₁ ∧ next b w₁ = .ok a w' := by
  change EStateM.bind task next w = _ at success
  unfold EStateM.bind at success
  cases result : task w with
  | ok b w₁ =>
    rw [result] at success
    exact ⟨b, w₁, rfl, success⟩
  | error e w₁ =>
    rw [result] at success
    cases success

theorem of_bind_error {task : Task ε β} {next : β → Task ε α} {e : ε}
    (failure : (task >>= next) w = .error e w') :
    task w = .error e w' ∨ ∃ b w₁, task w = .ok b w₁ ∧ next b w₁ = .error e w' := by
  change EStateM.bind task next w = _ at failure
  unfold EStateM.bind at failure
  cases result : task w with
  | ok b w₁ =>
    rw [result] at failure
    exact Or.inr ⟨b, w₁, rfl, failure⟩
  | error e' w₁ =>
    rw [result] at failure
    cases failure
    exact Or.inl rfl

/-- Two ways to go on are the same if they are where the first part ends. -/
theorem bind_congr_after {task : Task ε β} {next next' : β → Task ε α}
    (same : ∀ b w', task w = .ok b w' → next b w' = next' b w') :
    (task >>= next) w = (task >>= next') w := by
  change EStateM.bind task next w = EStateM.bind task next' w
  unfold EStateM.bind
  cases result : task w with
  | ok b w' => exact same b w' result
  | error e w' => rfl

theorem mapError_congr {task task' : Task ε α} (same : task w = task' w) (f : ε → ε') :
    task.mapError f w = task'.mapError f w := by
  unfold Task.mapError
  rw [same]

theorem of_mapError_ok {task : Task ε α} {f : ε → ε'} {a : α}
    (success : task.mapError f w = .ok a w') : task w = .ok a w' := by
  unfold Task.mapError at success
  split at success
  · next result =>
    cases success
    exact result
  · cases success

theorem bind_congr_first {task task' : Task ε β} (same : task w = task' w) (next : β → Task ε α) :
    (task >>= next) w = (task' >>= next) w := by
  change EStateM.bind task next w = EStateM.bind task' next w
  unfold EStateM.bind
  rw [same]

def Succeeds (task : Task ε α) (w : World) : Prop := ∃ value w', task w = .ok value w'

instance (task : Task ε α) (w : World) : Decidable (Succeeds task w) :=
  match result : task w with
  | .ok value w' => isTrue ⟨value, w', result⟩
  | .error _ _ => isFalse fun ⟨_, _, success⟩ => nomatch result.symm.trans success

theorem Succeeds.after {task : Task ε β} {next : β → Task ε α} {b : β} (done : task w = .ok b w')
    (rest : Succeeds (next b) w') : Succeeds (task >>= next) w := by
  obtain ⟨a, w'', done'⟩ := rest
  exact ⟨a, w'', (bind_ok done next).trans done'⟩

theorem Succeeds.get {next : World → Task ε α} (rest : Succeeds (next w) w) :
    Succeeds (MonadState.get >>= next) w :=
  rest

theorem Succeeds.ofExcept {result : Except ε β} {next : β → Task ε α} {b : β}
    (success : result = .ok b)
    (rest : Succeeds (next b) w) : Succeeds (Task.ofExcept result >>= next) w := by
  subst success
  exact rest

/-- What a first task is known to give is there for the one that follows. -/
theorem Succeeds.bind {task : Task ε β} {next : β → Task ε α} {mid : World → β → Prop}
    (first : Succeeds task w)
    (safe : Safe task mid w)
    (rest : ∀ b w', w'.Sound → w.Grows w' → mid w' b → Succeeds (next b) w') :
    Succeeds (task >>= next) w := by
  obtain ⟨b, w₁, done⟩ := first
  obtain ⟨sound, grows, holds⟩ := safe.ok done
  exact .after done (rest b w₁ sound grows holds)

theorem Succeeds.mapError {task : Task ε α} (success : Succeeds task w) (f : ε → ε') :
    Succeeds (task.mapError f) w := by
  obtain ⟨a, w', done⟩ := success
  refine ⟨a, w', ?_⟩
  unfold Task.mapError
  rw [done]

theorem sound_endScope (sound : w.Sound) (outer result : List HandleId) :
    (w.endScope outer result).Sound ∧ w.Grows (w.endScope outer result) := by
  have kept : w.handles.Evolves w.Shows ((w.retainAll result).dropAll w.held).handles :=
    (HandleTable.evolves_foldl (fun _ id => HandleTable.evolves_retain id) result _).trans
      (HandleTable.evolves_foldl (fun _ id => HandleTable.evolves_drop id) w.held _)
  have uses : w.handles.Used ((w.retainAll result).dropAll w.held).handles :=
    (HandleTable.used_retainAll result _).trans (HandleTable.used_dropAll w.held _)
  obtain ⟨sound', grows⟩ := sound.withHandles kept uses
  have ended : (w.endScope outer result).Sound ∧ _ := sound'.unaffected rfl rfl rfl rfl rfl
  exact ⟨ended.1, grows.trans ended.2⟩

theorem Safe.scoped {task : Task ε α} {kept : α → List HandleId} (sound : w.Sound)
    (lasting : ∀ {w' a}, w'.Sound → post w' a → ∀ result, post (w'.endScope w.held result) a)
    (safe : ∀ {w'}, w'.Sound → w.Grows w' → Safe task post w') :
    Safe (task.inScope kept) post w := by
  have opened : World.Sound { w with held := [] } ∧ w.Grows { w with held := [] } :=
    sound.unaffected rfl rfl rfl rfl rfl
  refine .inScope opened (fun _ sound' => sound_endScope sound' _ _) ?_ (safe opened.1 opened.2)
  exact fun result sound' holds => lasting sound' holds result

theorem safe_emit (sound : w.Sound) (event : Event) :
    Safe (emit event : Task ε Unit) (fun _ _ => True) w :=
  .modify (sound.unaffected rfl rfl rfl rfl rfl) trivial

theorem safe_logEntry (sound : w.Sound) (entry : LogEntry) :
    Safe (logEntry entry : Task ε Unit) (fun _ _ => True) w :=
  .modify (sound.unaffected rfl rfl rfl rfl rfl) trivial

theorem safe_addClass (sound : w.Sound) (handle : ClassHandle) :
    Safe (addClass handle : Task ε ClassId) (fun _ _ => True) w := by
  have added : World.Sound { w with classes := w.classes ++ [handle] } ∧ _ :=
    sound.unaffected rfl rfl rfl rfl rfl
  exact ⟨added.1, added.2, trivial⟩

theorem safe_addFunction (sound : w.Sound) (body : ScriptCode) :
    Safe (addFunction body : Task ε FunctionId) (fun _ _ => True) w := by
  have added : World.Sound { w with functions := w.functions ++ [body] } ∧ _ :=
    sound.unaffected rfl rfl rfl rfl rfl
  exact ⟨added.1, added.2, trivial⟩

theorem safe_lookupType (sound : w.Sound) (name : String) :
    Safe (lookupType name : Task ε (Option TypeId)) (fun _ _ => True) w := by
  obtain ⟨sound', grows⟩ := sound.withArrays (.lookup sound.registry name)
  exact ⟨sound', grows, trivial⟩

/-- The array type that is given is the one of its component. -/
theorem safe_arrayOf (sound : w.Sound) (c : TypeId) :
    Safe (onRegistry (Registry.arrayOf c))
    (fun w' a => w'.registry.arrays.lookup c = some a) w := by
  have added := sound.withArrays ((Registry.AddsArrays.refl sound.registry).arrayOf c)
  have outcome := Registry.arrayOf_outcome w.registry c
  unfold Safe Meets onRegistry
  generalize Registry.arrayOf c w.registry = result at added outcome
  cases result with
  | ok a r => exact ⟨added.1, added.2, outcome.lookup⟩
  | error e r => exact added

/-- A handle shows its object under a type that the object belongs to. -/
theorem assignable_visibleClass {r : Registry} (settled : r.Settled) (cls : TypeId) :
    r.isAssignable cls (r.visibleClass cls) = true := by
  rw [Registry.isAssignable_iff settled]
  unfold Registry.visibleClass
  split
  · next t found =>
    split
    · cases shown : t.interfaces.head?.or t.superclass with
      | none => exact .refl cls
      | some j =>
        have super : j ∈ t.supers := by
          rw [TypeInfo.supers, List.mem_append]
          rcases Option.or_eq_some_iff.mp shown with head | ⟨_, superclass⟩
          · exact Or.inr (List.mem_of_mem_head? head)
          · exact Or.inl (by simp [superclass])
        have edge := (Registry.edge_iff settled.coherent).mpr ⟨t, found, Or.inl super⟩
        exact .climb (.step (.here cls) edge)
    · exact .refl cls
  · exact .refl cls

theorem safe_wrapObject {object : ObjectRef} (sound : w.Sound) (held : w.heap.Holds object) :
    Safe (wrapObject object : Task ε HandleId) (fun _ _ => True) w := by
  have shown : w.Shows object (w.registry.visibleClass object.cls) :=
    ⟨held, assignable_visibleClass sound.registry object.cls⟩
  obtain ⟨sound', grows⟩ :=
    sound.withHandles (HandleTable.evolves_wrap shown (w.heap.dispatcher? object))
      (HandleTable.used_apply _ (.operate (.wrap _ _ _)))
  have wrapped : (stateAfter ((wrapObject object : Task ε HandleId) w)).Sound ∧ _ :=
    sound'.unaffected rfl rfl rfl rfl rfl
  exact ⟨wrapped.1, grows.trans wrapped.2, trivial⟩

theorem safe_superView (sound : w.Sound) (id : HandleId) :
    Safe (superView id : Task ε HandleId) (fun _ _ => True) w := by
  obtain ⟨sound', grows⟩ := sound.withHandles (HandleTable.evolves_superView sound.handles id)
    (HandleTable.used_apply _ (.operate (.superView id)))
  have taken : (stateAfter ((superView id : Task ε HandleId) w)).Sound ∧ _ :=
    sound'.unaffected rfl rfl rfl rfl rfl
  exact ⟨taken.1, grows.trans taken.2, trivial⟩

end Interop.Task
