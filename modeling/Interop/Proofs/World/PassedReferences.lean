import Interop.Proofs.World.Conversions

/-!
Values that a reference type accepts already, when they are converted to it. A class or an interface
keeps them, so an object behind a handle is the very object that a native member gets. An array type
keeps null and the arrays of exactly that type. It also accepts arrays of types below it, and in
place of those there is a new array, whose elements are in turn kept or replaced by the component.
-/
namespace Interop

open Marshal (Converted IsMade MadeFor convert convertAlong convertPairs convertArguments unwrap
  unwrapAll)
open Registry (runtimeType?)

variable {w : World} {v u : Value} {c target : TypeId} {start : Nat}

/-- A reference type that accepts the value and takes it over as it is. -/
structure Registry.Keeps (r : Registry) (target : TypeId) (v : Value) : Prop where
  reference : r.primitiveKind? target = none
  accepted : r.accepts target v = true
  direct : r.component? target = none ∨ v = .null ∨ runtimeType? v = some target

/-- An array type keeps no objects but its own arrays. -/
theorem Registry.Keeps.own {r : Registry} {ref : ObjectRef} (keeps : r.Keeps target (.object ref))
    (array : r.component? target = some c) : ref.cls = target := by
  rcases keeps.direct with noArray | null | runtime
  · rw [array] at noArray
    cases noArray
  · cases null
  · exact Option.some.inj runtime

namespace Marshal

theorem convertAlong_kept {components : List TypeId} (sound : w.Sound)
    (keeps : w.registry.Keeps target v) : convertAlong target components v w = .ok v w := by
  obtain ⟨t, found, _⟩ := (Registry.accepts_iff sound.registry).mp keeps.accepted
  rw [convertAlong, Task.get_bind]
  simp only [found]
  cases kind : t.kind with
  | primitive k =>
    have reference := keeps.reference
    simp [Registry.primitiveKind?, found, TypeInfo.primitiveKind?, kind] at reference
  | cls | interface =>
    simp only [keeps.accepted, if_true]
    rfl
  | array c =>
    have array : w.registry.component? target = some c := by
      simp [Registry.component?, found, TypeInfo.component?, kind]
    rcases accepted_by_array sound array keeps.accepted with rfl | ⟨ref, rfl, _⟩
    · rfl
    · simp only [keeps.own array, if_true]
      rfl

theorem convert_kept (sound : w.Sound) (keeps : w.registry.Keeps target v) :
    convert v target w = .ok v w := by
  rw [convert, Task.get_bind]
  exact convertAlong_kept sound keeps

theorem convertArguments_kept {args : List Value} {params : List TypeId} (sound : w.Sound)
    (keeps : List.Forall₂ w.registry.Keeps params args) :
    convertArguments args params false w = .ok args w := by
  have pairs : convertPairs (args.zip params) w = .ok args w := by
    induction keeps with
    | nil => rfl
    | cons first _ ih =>
      rw [List.zip_cons_cons, convertPairs, Task.bind_ok (convert_kept sound first),
        Task.bind_ok ih]
      rfl
  simpa [convertArguments, keeps.length_eq] using pairs

theorem unwrapAll_instances {ids : List HandleId} {objects : List ObjectRef}
    (behind : List.Forall₂ (fun id object => (w.handle? id).map Handle.target = some object)
      ids objects) :
    unwrapAll (ids.map ScriptValue.instance) w = .ok (objects.map Value.object) w := by
  induction behind with
  | nil => rfl
  | @cons id _ _ _ first _ ih =>
    obtain ⟨h, found, rfl⟩ := Option.map_eq_some_iff.mp first
    have given : unwrap (.instance id) w = .ok (.object h.target) w := by
      rw [unwrap, Task.get_bind, found]
      rfl
    rw [List.map_cons, unwrapAll, Task.bind_ok given, Task.bind_ok ih]
    rfl

/-- How a value is passed on to a type that accepts it: as it is, or as a new array for an array of
another type, with elements that are passed on in the same way. -/
inductive PassedOn (start : Nat) (w : World) : TypeId → Value → Value → Prop where
  | kept {target : TypeId} {v : Value} (keeps : w.registry.Keeps target v) :
      PassedOn start w target v v
  | copied {target c : TypeId} {source copy : ObjectRef}
      (array : w.registry.component? target = some c) (other : source.cls ≠ target)
      (made : IsMade start target w copy)
      (count : (w.heap.elements source).length = (w.heap.elements copy).length)
      (each : ∀ {v u}, (v, u) ∈ (w.heap.elements source).zip (w.heap.elements copy) →
        PassedOn start w c v u) :
      PassedOn start w target (.object source) (.object copy)

/-- What is accepted is not changed by the rules of a primitive kind, nor made from a text. -/
theorem Converted.passedOn (converted : Converted start w target v u) (sound : w.Sound)
    (reference : w.registry.primitiveKind? target = none) (known : w.heap.Knows v)
    (accepted : w.registry.accepts target v = true) : PassedOn start w target v u := by
  induction converted with
  | primitive isPrimitive _ =>
    rw [reference] at isPrimitive
    cases isPrimitive
  | accepted _ noArray _ => exact .kept ⟨reference, accepted, Or.inl noArray⟩
  | null => exact .kept ⟨reference, accepted, Or.inr (Or.inl rfl)⟩
  | own _ same => exact .kept ⟨reference, accepted, Or.inr (Or.inr (congrArg some same))⟩
  | copied array other isArray made count _ ih =>
    rcases accepted_by_array sound array accepted with null | ⟨ref, same, own | below⟩
    · cases null
    · cases same
      exact absurd own other
    · cases same
      obtain ⟨d, ofArray, below, t, found, noKind⟩ := below
      obtain ⟨d', ofArray', elements⟩ := sound.array known isArray
      cases ofArray.symm.trans ofArray'
      refine .copied array other made count fun paired => ?_
      obtain ⟨knownElement, ofElement⟩ := elements _ (List.of_mem_zip paired).1
      exact ih paired (by simpa [Registry.primitiveKind?, found, TypeInfo.isPrimitive] using noKind)
        knownElement (Registry.accepts_of_below sound.registry below ofElement)
  | units array _ _ _ =>
    rcases accepted_by_array sound array accepted with null | ⟨ref, same, _⟩
    · cases null
    · cases same

/-- A copy is not what it was copied from. -/
theorem PassedOn.eq_iff {w' : World} (passed : PassedOn w.heap.objects.length w' target v u)
    (known : w.heap.Knows v) : u = v ↔ w'.registry.Keeps target v := by
  cases passed with
  | kept keeps => simp [keeps]
  | copied array other made _ _ =>
    constructor
    · intro same
      cases same
      obtain ⟨o, found, _⟩ := known
      have inRange := (List.getElem?_eq_some_iff.mp found).1
      have := made.fresh
      omega
    · intro keeps
      exact absurd (keeps.own array) other

end Marshal

open Marshal (PassedOn)

/-- The conversion of values that a reference type accepts already. -/
structure World.PassesReferences (w : World) : Prop where
  /-- A class or an interface gives the value itself, and so does an array type for null and for
  its own arrays; nothing changes in the world. -/
  kept : ∀ {v target}, w.registry.Keeps target v → convert v target w = .ok v w
  /-- In every case there is a result, the value itself or a new array for it. All that is added to
  the world are this array and those that are made for its elements in the same way. -/
  passed : ∀ {v target}, w.heap.Knows v → w.registry.primitiveKind? target = none →
    w.registry.accepts target v = true →
    ∃ u w', convert v target w = .ok u w' ∧ w.Allocates w' ∧
      PassedOn w.heap.objects.length w' target v u ∧ (u = v ↔ w.registry.Keeps target v) ∧
      ∀ address, w.heap.objects.length ≤ address → address < w'.heap.objects.length →
        MadeFor w.heap.objects.length w' target v u address
  /-- A member gets the very objects behind the handles that it is called with. -/
  arguments : ∀ {ids objects params},
    List.Forall₂ (fun id object => (w.handle? id).map Handle.target = some object) ids objects →
    List.Forall₂ w.registry.Keeps params (objects.map Value.object) →
    (unwrapAll (ids.map ScriptValue.instance) >>= fun args =>
      convertArguments args params false) w = .ok (objects.map Value.object) w

/-- At every moment a value passes to a type that accepts it, as it is unless it is an array of
another type. -/
theorem references_passed (moment : Moment w) : w.PassesReferences := by
  have sound := moment.sound
  constructor
  case kept => exact fun keeps => Marshal.convert_kept sound keeps
  case passed =>
    intro v target known reference accepted
    obtain ⟨t, found, _⟩ := (Registry.accepts_iff sound.registry).mp accepted
    have noKind : t.isPrimitive = false := by
      simpa [Registry.primitiveKind?, found, TypeInfo.isPrimitive] using reference
    obtain ⟨u, w', success⟩ :=
      Marshal.succeeds_convert sound known (Marshal.convertible_of_accepts found noKind accepted)
    have sound' := ((Marshal.safe_convert sound known target).ok success).1
    obtain ⟨adds, converted, onlyFor⟩ := Marshal.convert_ok sound.registry success
    have same := adds.registry
    have passed := converted.passedOn sound' (same ▸ reference) (known.mono adds.holds)
      (same ▸ accepted)
    exact ⟨u, w', success, adds, passed, same ▸ passed.eq_iff known,
      fun _ added inRange => onlyFor added inRange⟩
  case arguments =>
    intro ids objects params behind keeps
    rw [Task.bind_ok (Marshal.unwrapAll_instances behind)]
    exact Marshal.convertArguments_kept sound keeps

theorem score_accepted : scoreWorld.registry.component? ⟨24⟩ = some .object ∧
    scoreWorld.registry.primitiveKind? ⟨24⟩ = none ∧
    scoreWorld.registry.accepts ⟨24⟩ (.object score) = true := by
  decide +kernel

/-- The score stays itself as an array of texts and not as an array of objects, and the choir behind
its handle is what a member that takes a voice is given. -/
theorem references_scoreWorld :
    Moment scoreWorld ∧ scoreWorld.PassesReferences ∧
      convert (.object score) ⟨23⟩ scoreWorld = .ok (.object score) scoreWorld ∧
      (unwrapAll [.instance ⟨0⟩] >>= fun args => convertArguments args [⟨20⟩] false) scoreWorld =
        .ok [.object choir] scoreWorld ∧
      ∃ u w', convert (.object score) ⟨24⟩ scoreWorld = .ok u w' ∧ u ≠ .object score := by
  have moment := moment_of_reachable reachable_scoreWorld
  have passes := references_passed moment
  obtain ⟨⟨texts, ofTexts⟩, ⟨voice, ofVoice, noArray⟩, behind⟩ :
      (scoreWorld.registry.primitiveKind? ⟨23⟩ = none ∧
        scoreWorld.registry.accepts ⟨23⟩ (.object score) = true) ∧
      (scoreWorld.registry.primitiveKind? ⟨20⟩ = none ∧
        scoreWorld.registry.accepts ⟨20⟩ (.object choir) = true ∧
        scoreWorld.registry.component? ⟨20⟩ = none) ∧
      (scoreWorld.handle? ⟨0⟩).map Handle.target = some choir := by
    decide +kernel
  obtain ⟨array, objects, ofObjects⟩ := score_accepted
  have held : scoreWorld.heap.Holds score := ⟨_, rfl, rfl⟩
  obtain ⟨u, w', success, _, _, same, _⟩ :=
    passes.passed (v := .object score) held objects ofObjects
  refine ⟨moment, passes, passes.kept ⟨texts, ofTexts, Or.inr (Or.inr rfl)⟩, ?_, u, w', success, ?_⟩
  · exact passes.arguments (.cons behind .nil) (.cons ⟨voice, ofVoice, Or.inl noArray⟩ .nil)
  · rw [Ne, same]
    intro keeps
    exact absurd (keeps.own array) (by decide)

/-- An array of texts is accepted as an array of objects, but conversion to that type gives another
array. -/
theorem accepted_array_copied : Reachable scoreWorld ∧ scoreWorld.heap.Knows (.object score) ∧
    scoreWorld.registry.primitiveKind? ⟨24⟩ = none ∧
    scoreWorld.registry.accepts ⟨24⟩ (.object score) = true ∧
    ∃ copy w', convert (.object score) ⟨24⟩ scoreWorld = .ok (.object copy) w' ∧ copy ≠ score := by
  obtain ⟨array, reference, accepted⟩ := score_accepted
  refine ⟨reachable_scoreWorld, ⟨_, rfl, rfl⟩, reference, accepted, ?_⟩
  obtain ⟨u, w', success⟩ : Task.Succeeds (convert (.object score) ⟨24⟩) scoreWorld := by
    decide +kernel
  obtain ⟨adds, converted, _⟩ := Marshal.convert_ok reachable_scoreWorld.sound.registry success
  rcases converted.of_array (adds.registry ▸ array) with
    ⟨_, null | runtime⟩ | ⟨copy, rfl, made, _⟩
  · cases null
  · exact absurd runtime (by decide)
  · refine ⟨copy, w', success, ?_⟩
    rintro rfl
    exact absurd made.fresh (by decide +kernel)

end Interop
