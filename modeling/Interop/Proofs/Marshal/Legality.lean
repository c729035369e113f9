import Mathlib.Data.List.Zip
import Interop.Proofs.Marshal.Conversion

/-!
Arguments that have a distance can be converted. Distances are measured between types and conversion
works on values, so the two meet in what the runtime type of a value says about it: a boxed class
stands for a primitive value of its kind, and an array class for an array whose elements are of the
component type. Along nested arrays the conversion then succeeds level by level.
-/
namespace Interop.Marshal

open Interop.Task (Safe Succeeds)
open Registry (runtimeType?)

variable {w w' : World} {r r' : Registry} {v : Value} {a c target : TypeId}
    {kind own : PrimitiveKind}

/-- Values other than objects have one of the first classes as their type. -/
theorem runtimeType?_first (plain : ∀ ref, v ≠ .object ref) (runtime : runtimeType? v = some a) :
    ∃ t ∈ Registry.firstTypes, t.id = a ∧ t.isClass = true := by
  have listed : Registry.firstTypes.any (fun t => t.id == a && t.isClass) = true := by
    cases v with
    | object ref => exact absurd rfl (plain ref)
    | _ => cases runtime <;> decide
  simpa using listed

theorem isPrimitive_of_component {t : TypeInfo} (array : t.component? = some c) :
    t.isPrimitive = false := by
  simp [TypeInfo.isPrimitive, TypeInfo.primitiveKind?, TypeInfo.component?_eq.mp array]

theorem isPrimitive_of_isClass {t : TypeInfo} (isClass : t.isClass = true) :
    t.isPrimitive = false := by
  have kind : t.kind = .cls := by simpa [TypeInfo.isClass] using isClass
  simp [TypeInfo.isPrimitive, TypeInfo.primitiveKind?, kind]

/-- The runtime type of a value is a reference type, also for primitive values. -/
theorem runtimeType?_reference (sound : w.Sound) (known : w.heap.Knows v)
    (runtime : runtimeType? v = some a) :
    ∃ t, w.registry.get? a = some t ∧ t.isPrimitive = false := by
  by_cases plain : ∀ ref, v ≠ .object ref
  · obtain ⟨t, first, rfl, isClass⟩ := runtimeType?_first plain runtime
    exact ⟨t, (sound.registry.coherent.first first).1, isPrimitive_of_isClass isClass⟩
  · simp only [not_forall, not_not] at plain
    obtain ⟨ref, rfl⟩ := plain
    cases runtime
    rcases sound.cls known with ⟨c, component⟩ | ⟨⟨t, found, isClass⟩, _⟩
    · obtain ⟨t, found, array⟩ := Option.bind_eq_some_iff.mp component
      exact ⟨t, found, isPrimitive_of_component array⟩
    · exact ⟨t, found, isPrimitive_of_isClass isClass⟩

/-- Boxed classes have no instances of their own. -/
theorem primitiveKind?_of_unboxed (sound : w.Sound) (known : w.heap.Knows v)
    (runtime : runtimeType? v = some a)
    (unboxed : a.unboxedKind? = some own) : v.primitiveKind? = some own := by
  cases v with
  | object ref =>
    cases runtime
    rcases sound.cls known with ⟨c, component⟩ | ⟨_, notBoxed⟩
    · obtain ⟨t, first, same, noArray, _⟩ := Registry.unboxedKind?_first unboxed
      rw [Registry.component?, ← same, (sound.registry.coherent.first first).1, Option.bind_some,
        noArray] at component
      cases component
    · rw [notBoxed] at unboxed
      cases unboxed
  | _ =>
    cases runtime <;> cases unboxed <;> rfl

theorem toPrimitive?_isSome (primitive : v.primitiveKind? = some own)
    (near : (kind.distance own).isSome) :
    (toPrimitive? v kind).isSome := by
  cases v <;> cases primitive <;> cases kind <;> first | rfl | exact absurd near (by decide)

/-- A primitive type can be reached by its own rules; any other type has to accept the value. -/
def Convertible (r : Registry) (target : TypeId) (v : Value) : Prop :=
  ∃ t, r.get? target = some t ∧
    match t.primitiveKind? with
    | some kind => (toPrimitive? v kind).isSome
    | none => r.accepts target v = true

theorem Convertible.mono (convertible : Convertible r target v) (settled : r.Settled)
    (settled' : r'.Settled) (larger : r.Extends r') : Convertible r' target v := by
  obtain ⟨t, found, reason⟩ := convertible
  refine ⟨t, larger found, ?_⟩
  split
  · next kind => simpa only [kind] using reason
  · next kind =>
    simp only [kind] at reason
    exact Registry.accepts_mono settled settled' larger reason

theorem convertible_of_accepts {t : TypeInfo} (found : r.get? target = some t)
    (reference : t.isPrimitive = false)
    (accepted : r.accepts target v = true) : Convertible r target v := by
  refine ⟨t, found, ?_⟩
  have noKind : t.primitiveKind? = none := by simpa [TypeInfo.isPrimitive] using reference
  rw [noKind]
  exact accepted

/-- A reference type accepts what has a runtime type below it. -/
theorem accepts_of_runtime {t : TypeInfo} (settled : r.Settled) (found : r.get? target = some t)
    (reference : t.isPrimitive = false) (runtime : runtimeType? v = some a)
    (below : r.Below a target) :
    r.accepts target v = true := by
  have noKind : t.primitiveKind? = none := by simpa [TypeInfo.isPrimitive] using reference
  refine (Registry.accepts_iff settled).mpr ⟨t, found, ?_⟩
  simp only [Registry.Takes, noKind, settled.coherent.ids found]
  exact Or.inr ⟨a, runtime, below⟩

theorem convertible_of_match {memo : Overload.Memo} (sound : w.Sound) (passable : Passable w v)
    (justified : memo.Justified w.registry)
    (matched : (Overload.matchArgument w.registry target v memo).1.isSome) :
    Convertible w.registry target v := by
  unfold Overload.matchArgument at matched
  split at matched
  · next a runtime =>
    obtain ⟨t, found, reference⟩ := runtimeType?_reference sound passable.1 runtime
    rcases Overload.distance_justified justified matched with rfl | distance
    · exact convertible_of_accepts found reference
        (accepts_of_runtime sound.registry found reference runtime (.refl _))
    · unfold Overload.typeDistance at distance
      split at distance
      · cases distance
      · next u there =>
        split at distance
        · next kind primitive =>
          obtain ⟨n, near⟩ := Option.isSome_iff_exists.mp distance
          obtain ⟨own, unboxed, near⟩ := Option.bind_eq_some_iff.mp near
          refine ⟨u, there, ?_⟩
          rw [primitive]
          exact toPrimitive?_isSome (primitiveKind?_of_unboxed sound passable.1 runtime unboxed)
            (by rw [near]; rfl)
        · next noKind =>
          have reference : u.isPrimitive = false := by simp [TypeInfo.isPrimitive, noKind]
          rw [Option.isSome_map] at distance
          exact convertible_of_accepts there reference
            (accepts_of_runtime sound.registry there reference runtime
            ((Registry.isAssignable_iff sound.registry).mp distance))
  · next untyped =>
    -- Of the values without a type only null is ever passed.
    have null : v = .null := by
      cases v with
      | null => rfl
      | void => exact absurd rfl passable.2
      | _ => cases untyped
    subst null
    split at matched
    · next t found =>
      split at matched
      · cases matched
      · next reference =>
        refine convertible_of_accepts found (by simpa using reference) ?_
        refine (Registry.accepts_iff sound.registry).mpr ⟨t, found, ?_⟩
        have noKind : t.primitiveKind? = none := by simpa [TypeInfo.isPrimitive] using reference
        simp [Registry.Takes, noKind]
    · cases matched

/-- The components from an array type down to one that is no array. -/
inductive Nested (r : Registry) : TypeId → List TypeId → Prop where
  | innermost {i : TypeId} {t : TypeInfo} (found : r.get? i = some t)
      (noArray : t.component? = none) : Nested r i []
  | array {i c : TypeId} {rest : List TypeId} (component : r.component? i = some c)
      (below : Nested r c rest) :
      Nested r i (c :: rest)

theorem Nested.mono {components : List TypeId} (nested : Nested r target components)
    (larger : r.Extends r') :
    Nested r' target components := by
  induction nested with
  | innermost found noArray => exact .innermost (larger found) noArray
  | array component _ ih => exact .array (Registry.component?_mono larger component) ih

/-- The components of a type are listed in full: each is of lower rank, so the number of slots is
enough. -/
theorem nested_of_ranked {t : TypeInfo} {rank : TypeId → Nat} (coherent : r.Coherent)
    (ranked : r.Ranked rank) (found : r.get? target = some t) :
    Nested r target (r.components r.slots.length target) := by
  obtain ⟨rank, ranked, _, within⟩ := ranked.bounded_root coherent
  suffices listed : ∀ fuel {i t}, r.get? i = some t → rank i < fuel →
      Nested r i (r.components fuel i) from
    listed _ found (within found)
  intro fuel
  induction fuel with
  | zero => exact fun _ enough => absurd enough (Nat.not_lt_zero _)
  | succ fuel ih =>
    intro i t found enough
    unfold Registry.components
    cases component : r.component? i with
    | none =>
      refine .innermost found ?_
      simpa [Registry.component?, found] using component
    | some c =>
      obtain ⟨u, there, array⟩ := Option.bind_eq_some_iff.mp component
      cases found.symm.trans there
      have kind := TypeInfo.component?_eq.mp array
      have lower := ranked found c (by simp [TypeInfo.parents, array])
      obtain ⟨ct, live, _⟩ := (coherent.fits found).component c kind
      exact .array component (ih live (by omega))

theorem nested_components {t : TypeInfo} (settled : r.Settled) (found : r.get? target = some t) :
    Nested r target (r.components r.slots.length target) := by
  obtain ⟨_, ranked⟩ := settled.ranked
  exact nested_of_ranked settled.coherent ranked found

/-- What lies below an array type is that type or an array of something below its component. -/
theorem below_array (coherent : r.Coherent) (below : r.Below a target)
    (array : r.component? target = some c) :
    a = target ∨ ∃ d, r.component? a = some d ∧ r.Below d c ∧ ∃ t, r.get? c = some t ∧
      t.isPrimitive = false := by
  obtain ⟨t, found, component⟩ := Option.bind_eq_some_iff.mp array
  cases below with
  | refl => exact Or.inl rfl
  | climb path =>
    obtain ⟨u, there, _, noArray⟩ := path.ends coherent
    cases found.symm.trans there
    rw [noArray] at component
    cases component
  | array source target components =>
    obtain ⟨⟨s, live, kind⟩, _⟩ := source
    obtain ⟨⟨u, there, kind'⟩, reference⟩ := target
    cases found.symm.trans there
    cases (TypeInfo.component?_eq.mp component).symm.trans kind'
    refine Or.inr ⟨_, ?_, components, reference⟩
    rw [Registry.component?, live]
    exact TypeInfo.component?_eq.mpr kind

/-- An array type accepts null, its own arrays, and arrays of something below its component. -/
theorem accepted_by_array (sound : w.Sound) (component : w.registry.component? target = some c)
    (accepted : w.registry.accepts target v = true) :
    v = .null ∨ ∃ ref, v = .object ref ∧ (ref.cls = target ∨
      ∃ d, w.registry.component? ref.cls = some d ∧ w.registry.Below d c ∧
        ∃ t, w.registry.get? c = some t ∧ t.isPrimitive = false) := by
  have coherent := sound.registry.coherent
  obtain ⟨t, found, takes⟩ := (Registry.accepts_iff sound.registry).mp accepted
  have array : t.component? = some c := by simpa [Registry.component?, found] using component
  simp only [Registry.Takes, TypeInfo.primitiveKind?, TypeInfo.component?_eq.mp array,
    coherent.ids found] at takes
  rcases takes with null | ⟨a, runtime, below⟩
  · exact Or.inl null
  · have reason := below_array coherent below component
    by_cases plain : ∀ ref, v ≠ .object ref
    · -- Classes are no arrays, so no other value than an object has an array type.
      obtain ⟨u, first, rfl, isClass⟩ := runtimeType?_first plain runtime
      have live := (coherent.first first).1
      have noArray : w.registry.component? u.id = none := by
        have kind : u.kind = .cls := by simpa [TypeInfo.isClass] using isClass
        simp [Registry.component?, live, TypeInfo.component?, kind]
      rcases reason with same | ⟨d, ofArray, _⟩
      · rw [same, component] at noArray
        cases noArray
      · rw [ofArray] at noArray
        cases noArray
    · simp only [not_forall, not_not] at plain
      obtain ⟨ref, rfl⟩ := plain
      cases runtime
      exact Or.inr ⟨ref, rfl, reason⟩

theorem checkElements_of_accepts {elements : List Value}
    (accepted : ∀ v ∈ elements, r.accepts c v = true) (index : Nat) :
    r.checkElements c index elements = .ok () := by
  induction elements generalizing index with
  | nil => rfl
  | cons first rest ih =>
    obtain ⟨acceptedFirst, acceptedRest⟩ := List.forall_mem_cons.mp accepted
    unfold Registry.checkElements
    rw [if_pos acceptedFirst]
    exact ih acceptedRest (index + 1)

theorem succeeds_marshalArray {elements : List Value} (entry : w.registry.arrays.lookup c = some a)
    (accepted : ∀ v ∈ elements, w.registry.accepts c v = true) :
    Succeeds (marshalArray c elements) w := by
  have asked : Task.onRegistry (Registry.arrayOf c) w = .ok a w := by
    rw [Task.onRegistry, Registry.arrayOf_existing entry]
  have made : Succeeds (newArray c elements) w :=
    .after asked (.get (.ofExcept (checkElements_of_accepts accepted 0) ⟨_, _, rfl⟩))
  obtain ⟨ref, w', made⟩ := made
  unfold marshalArray
  refine Succeeds.mapError ?_ _
  exact .after made ⟨_, _, rfl⟩

theorem succeeds_convertEach {convertOne : Value → Task BridgeError Value} {values : List Value}
    (safe : ∀ {v w}, w.Sound → w.heap.Knows v → Safe (convertOne v) (Fitting c) w)
    (sound : w.Sound) (known : ∀ v ∈ values, w.heap.Knows v)
    (one : ∀ {w'}, w'.Sound → w.Grows w' → ∀ v ∈ values, Succeeds (convertOne v) w') :
    Succeeds (convertEach convertOne values) w := by
  induction values generalizing w with
  | nil => exact ⟨_, _, rfl⟩
  | cons first rest ih =>
    obtain ⟨knownFirst, knownRest⟩ := List.forall_mem_cons.mp known
    refine (one sound (World.Grows.refl w) first List.mem_cons_self).bind (safe sound knownFirst) ?_
    intro u w₁ sound₁ grows₁ _
    have knownLater : ∀ v ∈ rest, w₁.heap.Knows v :=
      fun v member => grows₁.knows (knownRest v member)
    refine (ih sound₁ knownLater ?_).bind (safe_convertEach safe sound₁ knownLater) ?_
    · intro w₂ sound₂ grows₂ v member
      exact one sound₂ (grows₁.trans grows₂) v (List.mem_cons_of_mem first member)
    · intro us w₂ _ _ _
      exact ⟨_, _, rfl⟩

/-- One level of a conversion, if the levels below succeed. -/
theorem succeeds_convertAlong_step {components : List TypeId}
    (deeper : ∀ {next rest}, components = next :: rest → ∀ {v w}, w.Sound → w.heap.Knows v →
      Nested w.registry next rest → Convertible w.registry next v →
        Succeeds (convertAlong next rest v) w)
    (sound : w.Sound) (known : w.heap.Knows v) (nested : Nested w.registry target components)
    (convertible : Convertible w.registry target v) :
    Succeeds (convertAlong target components v) w := by
  obtain ⟨t, found, reason⟩ := convertible
  unfold convertAlong
  refine .get ?_
  rw [found]
  cases kind : t.kind with
  | primitive k =>
    simp only [TypeInfo.primitiveKind?, kind] at reason
    obtain ⟨u, converted⟩ := Option.isSome_iff_exists.mp reason
    simp only [kind, converted]
    exact ⟨_, _, rfl⟩
  | cls =>
    simp only [TypeInfo.primitiveKind?, kind] at reason
    simp only [kind, reason, if_true]
    exact ⟨_, _, rfl⟩
  | interface =>
    simp only [TypeInfo.primitiveKind?, kind] at reason
    simp only [kind, reason, if_true]
    exact ⟨_, _, rfl⟩
  | array c =>
    simp only [TypeInfo.primitiveKind?, kind] at reason
    have component : w.registry.component? target = some c := by
      rw [Registry.component?, found]
      exact TypeInfo.component?_eq.mpr kind
    simp only [kind]
    rcases accepted_by_array sound component reason with rfl |
      ⟨ref, rfl, same | ⟨d, ofArray, below, ct, live, reference⟩⟩
    · exact ⟨_, _, rfl⟩
    · simp only [same, if_true]
      exact ⟨_, _, rfl⟩
    · by_cases same : ref.cls = target
      · simp only [same, if_true]
        exact ⟨_, _, rfl⟩
      · have isArray := sound.isArray_of_component known ofArray
        obtain ⟨d', ofArray', elements⟩ := sound.array known isArray
        cases ofArray.symm.trans ofArray'
        cases nested with
        | innermost there noArray =>
          cases found.symm.trans there
          rw [TypeInfo.component?_eq.mpr kind] at noArray
          cases noArray
        | @array _ next rest component' nested =>
          cases component.symm.trans component'
          simp only [same, if_false, isArray, if_true]
          have known : ∀ v ∈ w.heap.elements ref, w.heap.Knows v :=
            fun v member => (elements v member).1
          refine (succeeds_convertEach safe_convertAlong sound known ?_).bind
            (safe_convertEach safe_convertAlong sound known) ?_
          · -- What the component of the given array takes, the wanted component takes as well.
            intro w' sound' grows v member
            have accepted := Registry.accepts_of_below sound.registry below (elements v member).2
            exact deeper rfl sound' (grows.knows (known v member)) (nested.mono grows.registry)
              ((convertible_of_accepts live reference accepted).mono sound.registry sound'.registry
                grows.registry)
          · intro converted w₁ sound₁ grows₁ fitting
            have entry := sound₁.registry.coherent.arrays.mpr ⟨t, grows₁.registry found, kind⟩
            exact succeeds_marshalArray entry (fun u member => (fitting u member).2)

theorem succeeds_convertAlong {components : List TypeId} (sound : w.Sound) (known : w.heap.Knows v)
    (nested : Nested w.registry target components) (convertible : Convertible w.registry target v) :
    Succeeds (convertAlong target components v) w := by
  induction components generalizing target v w with
  | nil => exact succeeds_convertAlong_step nofun sound known nested convertible
  | cons next rest ih =>
    refine succeeds_convertAlong_step ?_ sound known nested convertible
    rintro _ _ ⟨⟩ v w sound known nested convertible
    exact ih sound known nested convertible

theorem succeeds_convert (sound : w.Sound) (known : w.heap.Knows v)
    (convertible : Convertible w.registry target v) :
    Succeeds (convert v target) w := by
  have ⟨t, found, _⟩ := convertible
  exact .get (succeeds_convertAlong sound known
    (nested_components sound.registry found) convertible)

theorem succeeds_convertPairs {pairs : List (Value × TypeId)} (sound : w.Sound)
    (known : ∀ pair ∈ pairs, w.heap.Knows pair.1)
    (convertible : ∀ pair ∈ pairs, Convertible w.registry pair.2 pair.1) :
    Succeeds (convertPairs pairs) w := by
  induction pairs generalizing w with
  | nil => exact ⟨_, _, rfl⟩
  | cons pair rest ih =>
    obtain ⟨knownFirst, knownRest⟩ := List.forall_mem_cons.mp known
    obtain ⟨first, others⟩ := List.forall_mem_cons.mp convertible
    refine (succeeds_convert sound knownFirst first).bind (safe_convert sound knownFirst _) ?_
    intro u w₁ sound₁ grows₁ _
    have knownLater : ∀ pair ∈ rest, w₁.heap.Knows pair.1 :=
      fun pair member => grows₁.knows (knownRest pair member)
    refine (ih sound₁ knownLater ?_).bind (safe_convertPairs sound₁ knownLater) ?_
    · intro pair member
      exact (others pair member).mono sound.registry sound₁.registry grows₁.registry
    · intro us w₂ _ _ _
      exact ⟨_, _, rfl⟩

open Overload (Matches fixedParams matches_of_score)

theorem Convertible.of_matches (sound : w.Sound) (passable : Passable w v)
    (matched : Matches w.registry target v) :
    Convertible w.registry target v := by
  obtain ⟨memo, justified, matched⟩ := matched
  exact convertible_of_match sound passable justified matched

theorem mem_zip_swap {α β : Type} {as : List α} {bs : List β} {pair : α × β}
    (member : pair ∈ as.zip bs) :
    pair.swap ∈ bs.zip as := by
  rw [← List.zip_swap]
  exact List.mem_map_of_mem member

/-- A member whose score is defined takes the arguments, whatever else has happened since they were
measured. -/
theorem succeeds_convertArguments {args : List Value} {member : Signature} {memo : Overload.Memo}
    (sound : w.Sound) (passable : ∀ v ∈ args, Passable w v) (justified : memo.Justified w.registry)
    (applicable : Overload.isApplicable member args = true)
    (scored : (Overload.score w.registry member args memo).1.isSome) :
    Succeeds (convertArguments args member.params member.variadic) w := by
  obtain ⟨enough, front, packed⟩ := matches_of_score justified scored
  have known : ∀ types : List TypeId, ∀ pair ∈ args.zip types, w.heap.Knows pair.1 :=
    fun types pair member => (passable pair.1 (List.of_mem_zip member).1).1
  have convertible : ∀ pair ∈ args.zip (fixedParams member),
      Convertible w.registry pair.2 pair.1 := by
    intro pair listed
    exact .of_matches sound (passable pair.1 (List.of_mem_zip listed).1)
      (front pair.swap (mem_zip_swap listed))
  unfold convertArguments
  cases variadic : member.variadic with
  | false =>
    simp only [fixedParams, variadic, Bool.false_eq_true, if_false] at convertible
    have count : args.length = member.params.length := by
      simpa [Overload.isApplicable, variadic] using applicable
    simp only [Bool.not_false, if_true, count, ne_eq, not_true_eq_false, if_false]
    exact succeeds_convertPairs sound (known _) convertible
  | true =>
    obtain ⟨last, c, isLast, component, packed⟩ := packed variadic
    simp only [fixedParams, variadic, if_true] at enough convertible packed
    simp only [Bool.not_true, Bool.false_eq_true, if_false, isLast, Nat.not_lt.mpr enough]
    refine .get ?_
    simp only [component]
    refine (succeeds_convertPairs sound (known _) convertible).bind
      (safe_convertPairs sound (known _)) ?_
    intro fixed w₁ sound₁ grows₁ _
    have rest : ∀ pair ∈ (args.drop member.params.dropLast.length).map (fun arg => (arg, c)),
        w₁.heap.Knows pair.1 ∧ Convertible w₁.registry pair.2 pair.1 := by
      simp only [List.mem_map]
      rintro _ ⟨arg, listed, rfl⟩
      have given := passable arg (List.mem_of_mem_drop listed)
      exact ⟨grows₁.knows given.1,
        (Convertible.of_matches sound given (packed arg listed)).mono sound.registry sound₁.registry
          grows₁.registry⟩
    have knownRest := fun pair listed => (rest pair listed).1
    refine (succeeds_convertPairs sound₁ knownRest (fun pair listed => (rest pair listed).2)).bind
      (safe_convertPairs sound₁ knownRest) ?_
    intro values w₂ sound₂ grows₂ fitting
    obtain ⟨t, found, array⟩ := Option.bind_eq_some_iff.mp component
    have entry := sound₂.registry.coherent.arrays.mpr
      ⟨t, grows₂.registry (grows₁.registry found), TypeInfo.component?_eq.mp array⟩
    obtain ⟨packed, w₃, done⟩ :=
      succeeds_marshalArray entry (fun v listed => (fitting_of_pairs fitting v listed).2)
    exact .after done ⟨_, _, rfl⟩

end Interop.Marshal
