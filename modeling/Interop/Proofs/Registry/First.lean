import Interop.Proofs.Registry.Coherence

/-!
The first registry is coherent. Its types are in the slots that their ids say, so a fact about the
registry is a fact about each of the first types, which can be checked one by one.
-/
namespace Interop.Registry

variable {i : TypeId} {t : TypeInfo}

theorem firstTypes_indices :
    firstTypes.map (fun t => t.id.index) = List.range firstTypes.length := by
  decide

theorem firstTypes_index {n : Nat} (found : firstTypes[n]? = some t) : t.id.index = n := by
  have inRange : n < firstTypes.length := (List.getElem?_eq_some_iff.mp found).1
  have index : (firstTypes.map (fun t => t.id.index))[n]? = some t.id.index := by
    rw [List.getElem?_map, found]
    rfl
  rw [firstTypes_indices, List.getElem?_range inRange] at index
  exact (Option.some.inj index).symm

theorem initial_get? (i : TypeId) : initial.get? i = firstTypes[i.index]? := by
  simp only [get?, initial, List.getElem?_map]
  cases firstTypes[i.index]? <;> rfl

theorem initial_get?_iff : initial.get? i = some t ↔ t ∈ firstTypes ∧ t.id = i := by
  rw [initial_get?]
  constructor
  · intro found
    exact ⟨List.mem_of_getElem? found, TypeId.eq_of_index (firstTypes_index found)⟩
  · rintro ⟨member, rfl⟩
    obtain ⟨n, found⟩ := List.mem_iff_getElem?.mp member
    rw [firstTypes_index found]
    exact found

/-- What a first type mentions is there, and it extends a class that is open to extension. First
types have no interfaces, arrays or fields among them, and each declares its own members. -/
def isFirstFit (t : TypeInfo) : Bool :=
  t.mentions.all (fun j => (initial.get? j).isSome) &&
  t.superclass.all (fun s => (initial.get? s).any (fun u => u.isClass && !u.modifiers.isFinal)) &&
  t.interfaces.isEmpty && t.fields.isEmpty && t.component?.isNone && !t.isInterface &&
  t.methods.all (fun m => m.declaring == t.id) &&
  t.constructors.all (fun c => c.declaring == t.id) &&
  (!t.isClass || t.id == .object || t.superclass.isSome)

theorem firstTypes_fit : firstTypes.all isFirstFit = true := by
  decide

/-- Primitive types come first, and no other type of the first ones is primitive. -/
theorem primitive_of_first (member : t ∈ firstTypes) (primitive : t.isPrimitive = true) :
    t ∈ primitiveTypes := by
  have others : ([objectType, stringType, numberType] ++ boxedTypes).all
      (fun u => !u.isPrimitive) = true := by
    decide
  rw [firstTypes, List.append_assoc, List.mem_append] at member
  rcases member with first | other
  · exact first
  · have refuted := List.all_eq_true.mp others t other
    simp [primitive] at refuted

theorem first_fits (member : t ∈ firstTypes) : Fits initial t := by
  have fit := List.all_eq_true.mp firstTypes_fit t member
  simp only [isFirstFit, Bool.and_eq_true, List.all_eq_true, Option.isSome_iff_exists, beq_iff_eq,
    List.isEmpty_iff, Bool.not_eq_true', Option.isNone_iff_eq_none] at fit
  obtain ⟨⟨⟨⟨⟨⟨⟨⟨mentions, superclass⟩, interfaces⟩, fields⟩, component⟩, notInterface⟩, methods⟩,
    constructors⟩, _⟩ := fit
  have noArray : ∀ c, t.kind ≠ .array c := by
    intro c array
    rw [TypeInfo.component?_eq.mpr array] at component
    cases component
  constructor
  case mentions => exact mentions
  case superclass =>
    intro s extended
    simp only [extended, Option.all_some, Option.any_eq_true, Bool.and_eq_true,
      Bool.not_eq_true'] at superclass
    exact superclass
  case interfaces => simp [interfaces]
  case component =>
    intro c array
    exact absurd array (noArray c)
  case interface_alone =>
    intro isInterface
    simp [notInterface] at isInterface
  case array_shape =>
    intro c array
    exact absurd array (noArray c)
  case primitive_first => exact primitive_of_first member
  case own_methods => exact methods
  case own_constructors => exact constructors
  case own_fields => simp [fields]

theorem first_rooted (member : t ∈ firstTypes) (isClass : t.isClass = true)
    (notRoot : t.id ≠ .object) :
    ∃ s, t.superclass = some s := by
  have fit := List.all_eq_true.mp firstTypes_fit t member
  simp only [isFirstFit, Bool.and_eq_true, Bool.or_eq_true, isClass, beq_iff_eq, notRoot, or_false,
    Bool.not_true, Bool.false_eq_true, false_or] at fit
  exact Option.isSome_iff_exists.mp fit.2

/-- The types that stand for primitive values are first types; they are no arrays and have no
constructors. -/
theorem unboxedKind?_first {kind : PrimitiveKind} (unboxed : i.unboxedKind? = some kind) :
    ∃ t ∈ firstTypes, t.id = i ∧ t.component? = none ∧ t.constructors = [] := by
  have listed : firstTypes.any
      (fun t => t.id == i && (t.component?.isNone && t.constructors.isEmpty)) = true := by
    have named := List.find?_some unboxed
    simp only [Bool.or_eq_true, beq_iff_eq] at named
    rcases named with rfl | boxed
    · cases kind <;> decide
    · cases kind <;> cases boxed <;> decide
  simpa using listed

theorem coherent_initial : Coherent initial := by
  have noArray : ∀ {t c}, t ∈ firstTypes → t.kind ≠ .array c := by
    intro t c member array
    have fit := List.all_eq_true.mp firstTypes_fit t member
    simp [isFirstFit, TypeInfo.component?_eq.mpr array] at fit
  constructor
  case ids =>
    intro i t found
    exact (initial_get?_iff.mp found).2
  case fits =>
    intro i t found
    exact first_fits (initial_get?_iff.mp found).1
  case names =>
    intro n i named
    obtain ⟨before, after, split, _⟩ := List.lookup_eq_some_iff.mp named
    have entry : (n, i) ∈ initial.names := by simp [split]
    obtain ⟨t, member, pair⟩ := List.mem_map.mp entry
    cases pair
    exact ⟨t, initial_get?_iff.mpr ⟨member, rfl⟩, rfl⟩
  case free_nodup => exact List.nodup_nil
  case free_empty =>
    intro i member
    cases member
  case arrays =>
    intro c a
    constructor
    · intro entry
      cases entry
    · rintro ⟨t, found, array⟩
      exact absurd array (noArray (initial_get?_iff.mp found).1)
  case subclasses =>
    intro b g entry
    cases entry
  case implementations =>
    intro b g entry
    cases entry
  case first =>
    intro t member
    exact ⟨initial_get?_iff.mpr ⟨member, rfl⟩, List.not_mem_nil⟩
  case rooted =>
    intro i t found _ isClass notRoot
    obtain ⟨member, rfl⟩ := initial_get?_iff.mp found
    exact first_rooted member isClass notRoot
  case unnamed =>
    intro p n member
    cases member
  case pending =>
    intro p member
    cases member
  case supers_settled =>
    intro i t _ s _
    exact List.not_mem_nil

/-- The root class is always there. -/
theorem Coherent.object {r : Registry} (coherent : Coherent r) :
    r.get? .object = some objectType ∧ TypeId.object ∉ r.pending := by
  have first : objectType ∈ firstTypes := by simp [firstTypes]
  exact coherent.first first

/-- The primitive types are in their own slots. -/
theorem Coherent.primitive {r : Registry} (coherent : Coherent r) (kind : PrimitiveKind) :
    ∃ t, r.get? (.primitive kind) = some t ∧ t.kind = .primitive kind ∧ t.name = kind.name ∧
      TypeId.primitive kind ∉ r.pending := by
  have listed : firstTypes.any (fun t =>
      t.id == .primitive kind && (t.kind == .primitive kind && t.name == kind.name)) = true := by
    cases kind <;> decide
  simp only [List.any_eq_true, Bool.and_eq_true, beq_iff_eq] at listed
  obtain ⟨t, first, own, ofKind, name⟩ := listed
  obtain ⟨found, settled⟩ := coherent.first first
  rw [own] at found settled
  exact ⟨t, found, ofKind, name, settled⟩

/-- No other type is of a primitive kind. -/
theorem Coherent.eq_primitive {r : Registry} {kind : PrimitiveKind} (coherent : Coherent r)
    (ofKind : r.primitiveKind? i = some kind) : i = .primitive kind := by
  obtain ⟨t, found, own⟩ := Option.bind_eq_some_iff.mp ofKind
  have listed := (coherent.fits found).primitive_first (by simp [TypeInfo.isPrimitive, own])
  obtain ⟨kind', _, rfl⟩ := List.mem_map.mp listed
  cases own
  exact (coherent.ids found).symm

end Interop.Registry
