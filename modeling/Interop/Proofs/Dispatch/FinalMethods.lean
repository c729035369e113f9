import Interop.Proofs.Dispatch.Targets
import Interop.Proofs.Registry.MostDerived
import Interop.Proofs.Registry.Registrations

/-!
Final methods. A class may close a method, but nothing holds subclasses to it: a definition does not
compare the methods of a class with those it inherits, the search for a body does not ask whether
one is final, and overrides are passed by only if the method that was resolved is final. So a call
of the signature ends in the body of the final method exactly if no class below redeclares it and
if nothing else answers for the declaration that was resolved. A generated subclass declares
nothing, so there scripts cannot replace what is called by its final declaration.
-/
namespace Interop

variable {r : Registry} {rank : TypeId → Nat} {cls base : TypeId} {m m' : Method} {t : TypeInfo}

namespace Registry

/-- A class declares the method as a final one, with a body for its instances. -/
structure DeclaresFinal (r : Registry) (m : Method) : Prop where
  declared : ∃ t, r.get? m.declaring = some t ∧ t.isClass = true ∧ m ∈ t.methods
  isFinal : m.isFinal = true
  onInstance : m.isStatic = false
  body : m.body.isSome = true

/-- From a class up to the one that declares `m`, no other method stands for its signature. -/
structure Unreplaced (r : Registry) (cls : TypeId) (m : Method) : Prop where
  first : r.bodyAt? m.declaring m = some m
  between : ∀ j, r.isAssignable cls j = true → r.isAssignable j m.declaring = true →
    j ≠ m.declaring → r.bodyAt? j m = none

namespace DeclaresFinal

/-- The methods of the root class are open. -/
theorem not_root (final : DeclaresFinal r m) (coherent : Coherent r) : m.declaring ≠ .object := by
  intro root
  obtain ⟨t, found, _, member⟩ := final.declared
  rw [root, coherent.object.1] at found
  cases found
  have isOpen : objectType.methods.all (fun own => !own.isFinal) = true := by decide
  have isOpen := List.all_eq_true.mp isOpen m member
  simp [final.isFinal] at isOpen

theorem not_interface (final : DeclaresFinal r m) : ¬IsInterface r m.declaring := by
  rintro ⟨u, there, isInterface⟩
  obtain ⟨t, found, isClass, _⟩ := final.declared
  rw [there] at found
  cases found
  simp only [TypeInfo.isClass, TypeInfo.isInterface, beq_iff_eq] at isClass isInterface
  cases isClass.symm.trans isInterface

theorem bodyAt?_isSome (final : DeclaresFinal r m) : (r.bodyAt? m.declaring m).isSome := by
  obtain ⟨t, found, _, member⟩ := final.declared
  rw [bodyAt?_eq found, declaredBody?, List.find?_isSome]
  exact ⟨m, member, by simp [Method.sameSignature_self, final.body, final.onInstance]⟩

theorem path (final : DeclaresFinal r m) (coherent : Coherent r) (ranked : Ranked r rank)
    (below : r.isAssignable cls m.declaring = true) : ∃ n, Path r n cls m.declaring :=
  path_of_bodyAt? coherent ranked below final.bodyAt?_isSome

/-- A class below has its own body for the signature, or else that of its superclass. -/
theorem implementation?_of_unreplaced (final : DeclaresFinal r m) (coherent : Coherent r)
    (ranked : Ranked r rank) {n : Nat} (path : Path r n cls m.declaring)
    (unreplaced : Unreplaced r cls m) : r.implementation? cls m = some m := by
  induction n generalizing cls with
  | zero =>
    cases path
    obtain ⟨t, found, _⟩ := final.declared
    rw [implementation?_eq coherent ranked found, ← bodyAt?_eq found, unreplaced.first]
    rfl
  | succ n ih =>
    obtain ⟨k, edge, rest⟩ := path.first
    obtain ⟨t, found, _⟩ := (edge_iff coherent).mp edge
    have superclass := edge.to_class rest coherent found (final.not_root coherent)
      final.not_interface
    have above : r.implementation? k m = some m := by
      refine ih rest ⟨unreplaced.first, ?_⟩
      intro j further toFinal different
      by_contra body
      obtain ⟨l, up⟩ := path_of_bodyAt? coherent ranked further (Option.ne_none_iff_isSome.mp body)
      have whole : r.isAssignable cls j = true := (hops_isSome coherent ranked).mpr
        (below_of_path ((Path.step (.here cls) edge).trans up))
      exact body (unreplaced.between j whole toFinal different)
    by_cases own : cls = m.declaring
    · rw [implementation?_eq coherent ranked found, ← bodyAt?_eq found, own, unreplaced.first]
      rfl
    · have itself : r.isAssignable cls cls = true :=
        (hops_isSome coherent ranked).mpr (below_of_path (.here cls))
      have bare := unreplaced.between cls itself
        ((hops_isSome coherent ranked).mpr (below_of_path path)) own
      rw [bodyAt?_eq found] at bare
      rw [implementation?_eq coherent ranked found, bare]
      simp [searchParents, superclass, above]

/-- The body of a final method runs on the instances of a class exactly if nothing between the two
has a body for the signature. -/
theorem implementation?_iff (final : DeclaresFinal r m) (coherent : Coherent r)
    (ranked : Ranked r rank) (below : r.isAssignable cls m.declaring = true) :
    r.implementation? cls m = some m ↔ Unreplaced r cls m := by
  have runsFirst := runsFirstBody_of_ranked coherent ranked
  constructor
  · intro runs
    refine ⟨(runsFirst.declared runs).2, ?_⟩
    intro j further toFinal different
    by_contra body
    -- Only bodies of interfaces are passed over.
    have passed := runsFirst.passedOver runs further toFinal different
      (Option.ne_none_iff_isSome.mp body)
    exact passed.2.elim (final.not_root coherent) final.not_interface
  · intro unreplaced
    obtain ⟨n, path⟩ := final.path coherent ranked below
    exact final.implementation?_of_unreplaced coherent ranked path unreplaced

/-- On the class that declares it, only an earlier method of the class replaces a final one. -/
theorem unreplaced_self (settled : Settled r) (first : r.bodyAt? m.declaring m = some m) :
    Unreplaced r m.declaring m := by
  refine ⟨first, ?_⟩
  intro j further toFinal different
  have up := (isAssignable_iff settled).mp further
  have down := (isAssignable_iff settled).mp toFinal
  exact absurd (down.antisymm settled up) different

/-- Where a class has no body of its own, it runs what its superclass runs. -/
theorem unreplaced_step (final : DeclaresFinal r m) (settled : Settled r)
    (found : r.get? cls = some t) (superclass : t.superclass = some base)
    (bare : declaredBody? m t = none) (above : Unreplaced r base m) : Unreplaced r cls m := by
  have coherent := settled.coherent
  obtain ⟨rank, ranked⟩ := settled.ranked
  refine ⟨above.first, ?_⟩
  intro j further toFinal different
  by_contra body
  obtain ⟨n, path⟩ := path_of_bodyAt? coherent ranked further (Option.ne_none_iff_isSome.mp body)
  cases n with
  | zero =>
    cases path
    exact body ((bodyAt?_eq found).trans bare)
  | succ n =>
    obtain ⟨k, edge, rest⟩ := path.first
    obtain ⟨l, onward⟩ := final.path coherent ranked toFinal
    have same := edge.to_class (rest.trans onward) coherent found (final.not_root coherent)
      final.not_interface
    cases superclass.symm.trans same
    have fromBase := (hops_isSome coherent ranked).mpr (below_of_path rest)
    exact body (above.between j fromBase toFinal different)

end DeclaresFinal

end Registry

open Registry

/-- A caller has resolved `m'` for an object of the class, where `m` is a final method of the same
signature that the class declares or inherits. -/
structure SeesFinal (r : Registry) (cls : TypeId) (m m' : Method) : Prop where
  final : DeclaresFinal r m
  below : r.isAssignable cls m.declaring = true
  signature : m'.sameSignature m = true
  onInstance : m'.isStatic = false
  above : r.isAssignable cls m'.declaring = true

theorem SeesFinal.redeclared (sees : SeesFinal r cls m m') (coherent : Coherent r)
    (ranked : Ranked r rank) : Redeclared r cls m' m where
  signature := sees.signature
  onInstance := ⟨sees.onInstance, sees.final.onInstance⟩
  declaring := ⟨sees.above, sees.below⟩
  implemented := by
    obtain ⟨name, params⟩ := Method.sameSignature_iff.mp sees.signature
    obtain ⟨n, path⟩ := sees.final.path coherent ranked sees.below
    have found := (implementation?_isSome coherent ranked).mpr
      ⟨m.declaring, ⟨n, path⟩, sees.final.bodyAt?_isSome⟩
    simpa only [hasImplementation, implementation?, Method.sameSignature, name, params] using found

namespace World

variable {w : World} {object : ObjectRef} {args : List Value}

/-- Neither the identity of the object nor an override answers a call of `m`. -/
def Unhandled (w : World) (object : ObjectRef) (m : Method) (args : List Value) : Prop :=
  ∀ dispatcher, w.heap.dispatcher? object = some dispatcher →
    Invoke.identityAnswer? w dispatcher object m args = none ∧
      (w.overrides dispatcher).lookup m.name = none

theorem route_native_iff :
    w.route object m args = .native ↔ m.isFinal = true ∨ w.Unhandled object m args := by
  by_cases final : m.isFinal = true
  · simp [route, handlerOf, final]
  have met : w.handlerOf object m = w.heap.handler? object := by simp [handlerOf, final]
  rw [or_iff_right final, route, met, Unhandled, Heap.dispatcher?]
  cases w.heap.handler? object with
  | none => simp
  | some handler =>
    cases handler with
    | logging => simp
    | overrides dispatcher =>
      simp only [Option.some.injEq, forall_eq']
      cases Invoke.identityAnswer? w dispatcher object m args with
      | some answer => simp
      | none => cases (w.overrides dispatcher).lookup m.name <;> simp

/-- A call of the signature of a final method ends in its body exactly if nothing has replaced it on
the object's class and nothing else answers for the declaration that was resolved. -/
theorem target_eq_final_iff (sees : SeesFinal w.registry object.cls m m')
    (coherent : Coherent w.registry) (ranked : Ranked w.registry rank) :
    w.target object m' args = .native m ↔
      Unreplaced w.registry object.cls m ∧ (m'.isFinal = true ∨ w.Unhandled object m' args) := by
  have redeclared := sees.redeclared coherent ranked
  rw [← sees.final.implementation?_iff coherent ranked sees.below, ← route_native_iff]
  have native : w.registry.nativeMethod object.cls m' = m ↔
      w.registry.implementation? object.cls m = some m := by
    obtain ⟨own, runs⟩ := Option.isSome_iff_exists.mp redeclared.implemented
    simp only [Registry.nativeMethod, ← redeclared.implementation?_eq, runs, Option.getD_some,
      Option.some.injEq]
  constructor
  · intro target
    have route := w.route_target object m' args
    rw [target] at route
    have ends := w.target_of_route object m' args
    rw [← route] at ends
    exact ⟨native.mp (Target.native.inj (ends.symm.trans target)), route.symm⟩
  · rintro ⟨runs, route⟩
    have ends := w.target_of_route object m' args
    rw [route] at ends
    exact ends.trans (congrArg _ (native.mpr runs))

end World

/-- What becomes of final methods. -/
structure FinalMethods (r : Registry) : Prop where
  /-- Every declaration of the signature takes the same arguments, and a call with other ones fails
  and changes nothing. -/
  checks : ∀ {w : World} {object m m'} (args), w.registry = r → SeesFinal r object.cls m m' →
    (Guarded r m' (some object) args ↔ Guarded r m (some object) args) ∧
      (¬Guarded r m' (some object) args → ∀ run, ∃ e,
        Invoke.invoke run m' (some object) args w = .error e w)
  /-- A call that passes the checks runs its target, whichever declaration was resolved. -/
  runs : ∀ {w : World} {object m m' args}, w.registry = r → SeesFinal r object.cls m m' →
    Guarded r m' (some object) args → ∀ run,
      Invoke.invoke run m' (some object) args w = (w.target object m' args).run run m' object args w
  /-- The target is the body of the final method unless the method is replaced by a class or, for a
  declaration that is not final itself, by a script or by identity. -/
  final_iff : ∀ {w : World} {object m m'} (args), w.registry = r → SeesFinal r object.cls m m' →
    (w.target object m' args = .native m ↔
      Unreplaced r object.cls m ∧ (m'.isFinal = true ∨ w.Unhandled object m' args))
  declaring : ∀ {m}, r.bodyAt? m.declaring m = some m → Unreplaced r m.declaring m
  /-- A subclass that is generated for a script replaces nothing. -/
  generated : ∀ {m cls t base}, DeclaresFinal r m → r.get? cls = some t → t.generated = true →
    t.superclass = some base → Unreplaced r base m → Unreplaced r cls m

/-- Whatever has been defined, looked up or generated, the body of a final method runs exactly where
no class has redeclared the method, for calls that no script and no identity answers before. -/
theorem final_methods_run (operations : List Operation) : FinalMethods (afterAll operations) := by
  have settled := settled_afterAll operations
  have coherent := settled.coherent
  obtain ⟨rank, ranked⟩ := settled.ranked
  constructor
  case checks =>
    intro w object m m' args same sees
    refine ⟨(sees.redeclared coherent ranked).guarded_iff, ?_⟩
    intro unguarded run
    rw [← same] at unguarded sees
    exact Invoke.invoke_of_unguarded run sees.above unguarded
  case runs =>
    intro w object m m' args same sees guarded run
    rw [← same] at guarded
    exact Invoke.invoke_eq_target run sees.onInstance guarded
  case final_iff =>
    intro w object m m' args same sees
    rw [← same] at sees coherent ranked ⊢
    exact World.target_eq_final_iff sees coherent ranked
  case declaring => exact fun first => DeclaresFinal.unreplaced_self settled first
  case generated =>
    intro m cls t base final found generated superclass above
    have bare : declaredBody? m t = none := by
      rw [declaredBody?, methods_of_generated found generated]
      rfl
    exact final.unreplaced_step settled found superclass bare above

/-- A subclass of the choir that speaks for itself, although the choir has closed `speak`. -/
def soloDraft : TypeDraft where
  name := "app.Solo"
  isInterface := false
  modifiers := .plain
  superclass := some ⟨21⟩
  interfaces := []
  methods := [
    ⟨"speak", [], some .string, .plain, false, some (.code (.literal (.value (.string "solo"))))⟩]
  constructors := [⟨[], .plain, false, none⟩]
  fields := []

/-- The world of the choir with a soloist. -/
def soloWorld : World :=
  (Action.newInstance ⟨⟨23⟩, ⟨23⟩, "app.Solo", .plain⟩ []).apply
    ((Action.define soloDraft).apply choirWorld)

def solo : ObjectRef := ⟨1, ⟨23⟩⟩

theorem reachable_soloWorld : Reachable soloWorld :=
  .step (.step reachable_choirWorld (.define soloDraft) (Action.allowed_define (by decide)))
    (.newInstance _ _) trivial

/-- The final `speak` of the choir, called as such on the soloist, runs the body of the soloist; and
called on the choir by the declaration that it closes, it is answered by the script. -/
theorem final_speak_replaced : Reachable soloWorld ∧ soloWorld.registry =
      afterAll [.define voiceDraft, .define choirDraft, .generateSubclass ⟨21⟩, .define soloDraft] ∧
    ∃ m, (SeesFinal soloWorld.registry solo.cls m m ∧ Guarded soloWorld.registry m (some solo) [] ∧
        ∃ own, soloWorld.target solo m [] = .native own ∧ own ≠ m) ∧
      ∃ m', SeesFinal soloWorld.registry choir.cls m m' ∧
        Guarded soloWorld.registry m' (some choir) [] ∧
        soloWorld.route choir m' [] = .override := by
  refine ⟨reachable_soloWorld, rfl, ?_⟩
  obtain ⟨t, found, isClass, m, member, own, isFinal, onInstance, body, params, ofSolo, ofChoir⟩ :
      ∃ t ∈ soloWorld.registry.get? ⟨21⟩, t.isClass = true ∧ ∃ m ∈ t.methods,
        m.declaring = ⟨21⟩ ∧ m.isFinal = true ∧ m.isStatic = false ∧ m.body.isSome = true ∧
        m.params = [] ∧
        (soloWorld.registry.isAssignable solo.cls m.declaring = true ∧
          soloWorld.route solo m [] = .native ∧
          (soloWorld.registry.nativeMethod solo.cls m).declaring = ⟨23⟩) ∧
        soloWorld.registry.isAssignable choir.cls m.declaring = true ∧
        ∃ m' ∈ soloWorld.registry.allMethods ⟨20⟩, m'.sameSignature m = true ∧
          m'.isStatic = false ∧ soloWorld.registry.isAssignable choir.cls m'.declaring = true ∧
          soloWorld.route choir m' [] = .override := by
    decide +kernel
  obtain ⟨solos, native, replaced⟩ := ofSolo
  obtain ⟨choirs, m', _, signature, onInstance', above, script⟩ := ofChoir
  have final : DeclaresFinal soloWorld.registry m :=
    ⟨⟨t, own ▸ found, isClass, member⟩, isFinal, onInstance, body⟩
  have accepted : ∀ {m : Method}, m.params = [] →
      soloWorld.registry.checkArguments m.params [] (soloWorld.registry.describeMethod m) =
        .ok () := by
    intro m params
    rw [checkArguments_ok_iff, params]
    exact .nil
  have params' := (Method.sameSignature_iff.mp signature).2.trans params
  refine ⟨m, ⟨⟨final, solos, Method.sameSignature_self m, onInstance, solos⟩,
      ⟨accepted params, fun _ => ⟨solo, rfl, solos⟩⟩,
      soloWorld.registry.nativeMethod solo.cls m, ?_, ?_⟩,
    m', ⟨final, choirs, signature, onInstance', above⟩,
    ⟨accepted params', fun _ => ⟨choir, rfl, above⟩⟩, script⟩
  · have ends := soloWorld.target_of_route solo m []
    rw [native] at ends
    exact ends
  · intro same
    rw [same, own] at replaced
    cases replaced

end Interop
