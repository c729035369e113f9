import Interop.Proofs.Registry.Permanence

/-!
Defaults of fields. A default is checked while the slot of its type still holds a placeholder. What
replaces the placeholder inherits from more, not from less, so the default is a value of the field's
type from then on. Only a field of the type `void` has a default that is no value of its type.
-/
namespace Interop.Registry

variable {r r' r'' origin : Registry} {i j id : TypeId} {t : TypeInfo} {v : Value} {n : Nat}
  {draft : TypeDraft}

/-- Every type is there and of the same kind, and inherits from all that it inherited from. -/
def Widens (r r' : Registry) : Prop :=
  ∀ ⦃i t⦄, r.get? i = some t → ∃ u, r'.get? i = some u ∧ u.kind = t.kind ∧
    ∀ s ∈ t.supers, s ∈ u.supers

theorem Widens.trans (first : Widens r r') (second : Widens r' r'') : Widens r r'' := by
  intro i t found
  obtain ⟨u, found', kind, supers⟩ := first found
  obtain ⟨v, found'', kind', supers'⟩ := second found'
  exact ⟨v, found'', kind'.trans kind, fun s member => supers' s (supers s member)⟩

theorem Edge.widen (edge : Edge r i j) (coherent : Coherent r) (coherent' : Coherent r')
    (wider : Widens r r') : Edge r' i j := by
  obtain ⟨t, found, reason⟩ := (edge_iff coherent).mp edge
  obtain ⟨u, there, kind, supers⟩ := wider found
  refine (edge_iff coherent').mpr ⟨u, there, reason.imp (supers j) ?_⟩
  rintro ⟨isInterface, root⟩
  exact ⟨by rwa [TypeInfo.isInterface, kind], root⟩

theorem Path.widen (path : Path r n i j) (coherent : Coherent r) (coherent' : Coherent r')
    (wider : Widens r r') : Path r' n i j := by
  induction path with
  | here i => exact .here i
  | step _ edge ih => exact .step ih (edge.widen coherent coherent' wider)

theorem IsReferenceArray.widen (array : IsReferenceArray r i j) (wider : Widens r r') :
    IsReferenceArray r' i j := by
  obtain ⟨⟨t, found, array⟩, u, there, reference⟩ := array
  obtain ⟨t', found', kind, _⟩ := wider found
  obtain ⟨u', there', kind', _⟩ := wider there
  refine ⟨⟨t', found', kind.trans array⟩, u', there', ?_⟩
  rwa [TypeInfo.isPrimitive, TypeInfo.primitiveKind?, kind']

theorem Below.widen (below : Below r i j) (coherent : Coherent r) (coherent' : Coherent r')
    (wider : Widens r r') : Below r' i j := by
  induction below with
  | refl i => exact .refl i
  | climb path => exact .climb (path.widen coherent coherent' wider)
  | array source target _ ih => exact .array (source.widen wider) (target.widen wider) ih

/-- While a type is being defined, what is found assignable is a subtype. -/
theorem Coherent.below_of_assignable (coherent : Coherent r)
    (assignable : r.isAssignable i j = true) : Below r i j := by
  obtain ⟨n, found⟩ := Option.isSome_iff_exists.mp assignable
  exact below_iff_ascent.mpr ⟨n, (hopsWithin_least coherent found).1⟩

theorem accepts_widen (coherent : Coherent r) (settled' : Settled r') (wider : Widens r r')
    (accepted : r.accepts i v = true) : r'.accepts i v = true := by
  unfold accepts at accepted ⊢
  cases found : r.get? i with
  | none => simp [found] at accepted
  | some t =>
    obtain ⟨u, there, kind, _⟩ := wider found
    have sameKind : u.primitiveKind? = t.primitiveKind? := by
      simp only [TypeInfo.primitiveKind?, kind]
    simp only [found] at accepted
    simp only [there, sameKind]
    cases primitive : t.primitiveKind? with
    | some k => simpa only [primitive] using accepted
    | none =>
      simp only [primitive] at accepted ⊢
      cases actual : runtimeType? v with
      | none => simpa only [actual] using accepted
      | some a =>
        simp only [actual] at accepted ⊢
        have below := coherent.below_of_assignable accepted
        exact (isAssignable_iff settled').mpr (below.widen coherent settled'.coherent wider)

theorem arrays_publishArrays (fuel : Nat) (c : TypeId) (r : Registry) :
    (publishArrays fuel c r).1.arrays = r.arrays := by
  induction fuel generalizing c r with
  | zero => rfl
  | succ fuel ih =>
    unfold publishArrays
    split
    · rfl
    · dsimp only
      split
      · split
        · next success =>
          obtain ⟨_, rfl⟩ := install_ok success
          exact ih _ _
        · exact ih _ _
      · rfl

/-- Where classes and interfaces stay as they are and the same arrays are there, nothing gets lost:
an array is known by its component. -/
theorem Coherent.widens (coherent : Coherent r) (coherent' : Coherent r')
    (arrays : r'.arrays = r.arrays)
    (kept : ∀ {i t}, r.get? i = some t → t.component? = none → r'.get? i = some t) :
    Widens r r' := by
  intro i t found
  cases array : t.component? with
  | none => exact ⟨t, kept found array, rfl, fun _ member => member⟩
  | some c =>
    have kind := TypeInfo.component?_eq.mp array
    obtain ⟨u, there, kind'⟩ :=
      coherent'.arrays.mp (arrays.symm ▸ coherent.arrays.mpr ⟨t, found, kind⟩)
    refine ⟨u, there, kind'.trans kind.symm, ?_⟩
    rw [(coherent.fits found).array_shape c kind, (coherent'.fits there).array_shape c kind']
    exact fun _ member => member

theorem Defining.widens_publish (before : Defining origin id r) (found : r.get? id = some t)
    (rooted : t.isClass → ∃ s, t.superclass = some s) :
    Widens r (settlePending { r with names := (t.name, id) :: r.names } id).1 := by
  obtain ⟨outer, others, chain, nodup, enough, _⟩ := before.arrays_left
  obtain ⟨rank, ranked, _⟩ := before.ranked
  obtain ⟨coherent, _, _, kept, _⟩ := publishArrays_settles
    (before.coherent_named found rooted) ranked chain nodup others enough
  refine before.coherent.widens coherent (arrays_publishArrays _ _ _) ?_
  intro i u there noArray
  refine (kept i ?_).trans there
  intro member
  obtain ⟨c, _, entry⟩ := chain.component member
  obtain ⟨v, there', array⟩ := before.coherent.arrays.mp entry
  cases there.symm.trans there'
  rw [TypeInfo.component?_eq.mpr array] at noArray
  cases noArray

/-- A checked type is of the kind of its draft, and its fields are checked drafts of fields. -/
theorem buildType_header (success : r.buildType id draft = .ok t) :
    t.kind = (if draft.isInterface then .interface else .cls) ∧
      ∀ f ∈ t.fields, ∃ d ∈ draft.fields, r.checkField id d = .ok f := by
  unfold buildType at success
  obtain ⟨_, _, success⟩ := Except.bind_ok success
  obtain ⟨_, _, success⟩ := Except.bind_ok success
  obtain ⟨_, success⟩ := Except.unless_ok success
  obtain ⟨_, _, success⟩ := Except.bind_ok success
  obtain ⟨_, _, success⟩ := Except.bind_ok success
  obtain ⟨fields, fieldsOk, success⟩ := Except.bind_ok success
  cases success
  exact ⟨rfl, Except.mapM_ok fieldsOk⟩

/-- The header names no supertypes, so the checked type only adds some. -/
theorem Defining.widens_fill (before : Defining origin id r)
    (checked : (r.withHeader id draft).buildType id draft = .ok t) :
    Widens (r.withHeader id draft) ((r.withHeader id draft).fill t) := by
  have headed := before.withHeader draft
  have built := buildType_ok headed.coherent checked
  obtain ⟨_, self⟩ := headed.fillBuilt built
  obtain ⟨placeholder, there, _⟩ := before.placeholder
  intro i u found
  by_cases same : i = id
  · subst same
    refine ⟨t, self, ?_⟩
    have header := (get?_fill (t := { TypeInfo.blank i with
      name := draft.name
      kind := if draft.isInterface then .interface else .cls }) (inRange_of_get? there) i).trans
        (if_pos rfl)
    cases header.symm.trans found
    exact ⟨(buildType_header checked).1, nofun⟩
  · refine ⟨u, ?_, rfl, fun _ member => member⟩
    rw [get?_fill_other (by rwa [built.own_id])]
    exact found

/-- A field of the type may hold the value: a slot of the type takes it, or the type is `void`. -/
def Admits (r : Registry) (id : TypeId) (v : Value) : Prop :=
  r.accepts id v = true ∨ r.primitiveKind? id = some .void

/-- The default of every field is a value that the field may hold. -/
def DefaultsTyped (r : Registry) : Prop :=
  ∀ ⦃i t⦄, r.get? i = some t → ∀ f ∈ t.fields, r.Admits f.type f.default

theorem Admits.widen (admits : r.Admits i v) (coherent : Coherent r) (settled' : Settled r')
    (wider : Widens r r') : r'.Admits i v := by
  refine admits.imp (accepts_widen coherent settled' wider) ?_
  intro void
  obtain ⟨t, found, kind⟩ := Option.bind_eq_some_iff.mp void
  obtain ⟨u, there, sameKind, _⟩ := wider found
  rw [primitiveKind?, there, Option.bind_some, TypeInfo.primitiveKind?, sameKind]
  exact kind

theorem Extends.widens (larger : Extends r r') : Widens r r' :=
  fun _ t found => ⟨t, larger found, rfl, fun _ member => member⟩

theorem Admits.mono (admits : r.Admits i v) (settled : Settled r) (settled' : Settled r')
    (larger : Extends r r') : r'.Admits i v :=
  admits.widen settled.coherent settled' larger.widens

theorem primitiveKind?_zero {kind : PrimitiveKind} (notVoid : kind ≠ .void) :
    (Value.zero kind).primitiveKind? = some kind := by
  cases kind <;> first | rfl | exact absurd rfl notVoid

/-- A given default has been checked; otherwise it is null, or the zero of a primitive type. -/
theorem checkField_admits {f : FieldDraft} {field : Field}
    (success : r.checkField id f = .ok field) : r.Admits field.type field.default := by
  unfold checkField at success
  obtain ⟨u, required, success⟩ := Except.bind_ok success
  have found := require_ok required
  dsimp only at success
  split at success
  · split at success
    · next accepted =>
      cases success
      exact Or.inl accepted
    · cases success
  · cases success
    unfold Admits accepts
    simp only [primitiveKind?, found, Option.bind_some]
    cases kind : u.primitiveKind? with
    | none => exact Or.inl rfl
    | some k =>
      by_cases void : k = .void
      · exact Or.inr (by rw [void])
      · exact Or.inl (by simp [primitiveKind?_zero void])

/-- Array types have no fields, so the classes and interfaces that are new decide. -/
theorem DefaultsTyped.grow (before : DefaultsTyped r) (settled : Settled r)
    (settled' : Settled r') (larger : Extends r r')
    (known : ∀ {i t}, r'.get? i = some t → t.component? = none →
      r.get? i = some t ∨ ∀ f ∈ t.fields, r'.Admits f.type f.default) : DefaultsTyped r' := by
  intro i t found f declared
  cases array : t.component? with
  | none =>
    rcases known found array with old | new
    · exact (before old f declared).mono settled settled' larger
    · exact new f declared
  | some c =>
    rw [(settled'.coherent.fits found).array_shape c (TypeInfo.component?_eq.mp array)] at declared
    cases declared

theorem DefaultsTyped.complete (before : DefaultsTyped origin) (settled : Settled origin)
    (defining : Defining origin id r) (draft : TypeDraft) :
    DefaultsTyped (stateAfter (completeDefinition id draft r).1) := by
  have completed := defining.complete draft
  have headed := defining.withHeader draft
  have outcome := completion_outcome r id draft
  generalize (completeDefinition id draft r).1 = result at completed outcome
  refine before.grow settled completed.settled completed.grows ?_
  cases outcome with
  | released e => exact fun found noArray => Or.inl (headed.release.2.2 found noArray)
  | @published t checked free =>
    have built := buildType_ok headed.coherent checked
    obtain rfl := built.own_id
    obtain ⟨filled, self⟩ := headed.fillBuilt built
    have wider := (defining.widens_fill checked).trans (filled.widens_publish self built.rooted)
    intro i u found noArray
    refine (completed.known found noArray).imp_right ?_
    rintro ⟨_, checked'⟩ f declared
    obtain ⟨d, _, accepted⟩ := (buildType_header checked').2 f declared
    exact (checkField_admits accepted).widen headed.coherent completed.settled wider

theorem DefaultsTyped.defineWith (before : DefaultsTyped r) (settled : Settled r)
    (resolver : TypeId → Resolver) : DefaultsTyped (stateAfter (r.defineWith resolver).1) :=
  before.complete settled (settled.beginDefinition.resolve (resolver r.beginDefinition.1)) _

theorem DefaultsTyped.congr (before : DefaultsTyped r) (settled : Settled r)
    (settled' : Settled r') (same : ∀ i, r'.get? i = r.get? i) : DefaultsTyped r' :=
  before.grow settled settled' (fun i _ found => (same i).trans found)
    fun {i _} found _ => Or.inl ((same i).symm.trans found)

/-- Generated types declare no fields. -/
theorem DefaultsTyped.place (before : DefaultsTyped r) (settled : Settled r)
    (settled' : Settled r') (larger : Extends r r') (own : t.id = r.reserve.1)
    (bare : t.fields = []) (same : ∀ i, r'.get? i = (r.reserve.2.place t false).get? i) :
    DefaultsTyped r' := by
  refine before.grow settled settled' larger ?_
  intro i u found _
  rw [same, get?_place (own ▸ settled.coherent.reserved)] at found
  split at found
  · cases found
    rw [bare]
    exact Or.inr nofun
  · exact Or.inl (((reserve_frame r).1 i).symm.trans found)

theorem DefaultsTyped.generateSubclass (before : DefaultsTyped r) (settled : Settled r)
    (base : TypeId) : DefaultsTyped (stateAfter (r.generateSubclass base).1) := by
  have outcome := generateSubclass_outcome r base
  obtain ⟨settled', larger⟩ := outcome.settled settled
  generalize (Registry.generateSubclass base r).1 = result at outcome settled' larger
  cases outcome with
  | existing entry => exact before
  | refused e => exact before
  | taken e => exact before.congr settled settled' (reserve_frame r).1
  | @made bt =>
    exact before.place (t := subclassType r base bt) settled settled' larger rfl rfl fun _ => rfl

theorem DefaultsTyped.generateImplementation (before : DefaultsTyped r) (settled : Settled r)
    (interface : TypeId) : DefaultsTyped (stateAfter (r.generateImplementation interface).1) := by
  have outcome := generateImplementation_outcome r interface
  obtain ⟨settled', larger⟩ := outcome.settled settled
  generalize (Registry.generateImplementation interface r).1 = result at outcome settled' larger
  cases outcome with
  | existing entry => exact before
  | refused e => exact before
  | taken e => exact before.congr settled settled' (reserve_frame r).1
  | @made it =>
    exact before.place (t := implementationType r interface it) settled settled' larger rfl rfl
      fun _ => rfl

theorem defaultsTyped_initial : DefaultsTyped initial := by
  have bare : firstTypes.all (fun t => t.fields.isEmpty) = true := by decide
  intro i t found f declared
  have empty := List.all_eq_true.mp bare t (initial_get?_iff.mp found).1
  rw [List.isEmpty_iff.mp empty] at declared
  cases declared

end Interop.Registry
