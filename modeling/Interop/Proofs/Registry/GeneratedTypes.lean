import Interop.Proofs.Registry.Completion

/-!
Generated types. Asking for one finds the one that is there, refuses, or publishes a new class; when
its name is taken, only a slot has been spent.
-/
namespace Interop.Registry

variable {r : Registry} {id base s : TypeId} {t bt : TypeInfo} {rank : TypeId → Nat}
  {result : EStateM.Result NativeError Registry TypeId}

theorem Settled.reserve (settled : Settled r) : Settled r.reserve.2 := by
  obtain ⟨same, _, _, _, _, pending⟩ := reserve_frame r
  obtain ⟨rank, ranked⟩ := settled.ranked
  exact ⟨settled.coherent.reserve, ⟨rank, ranked.congr same⟩, pending.trans settled.idle⟩

/-- A class that fits is published in a slot that has been reserved for it. -/
theorem Settled.publishClass (settled : Settled r) (slot : Reserved r t.id) (fits : Fits r t)
    (isClass : t.isClass = true) (extended : t.superclass = some s) :
    Settled { r.place t false with names := (t.name, t.id) :: r.names } := by
  have noArray : ∀ c, t.kind ≠ .array c := by
    intro c array
    simp [TypeInfo.isClass, array] at isClass
  have idle : (r.place t false).pending = [] := settled.idle
  have placed : Coherent (r.place t false) := by
    apply settled.coherent.place slot fits
    · intro c array
      exact absurd array (noArray c)
    · intro waiting
      cases waiting
    · intro j _
      rw [settled.idle]
      exact List.not_mem_nil
    · exact fun _ => Or.inr ⟨s, extended⟩
  obtain ⟨rank, ranked⟩ := settled.ranked
  obtain ⟨bound, above⟩ := exists_rank_bound r rank
  refine ⟨?_, ⟨_, ranked.place settled.coherent slot false fits bound ?_⟩, idle⟩
  · apply placed.addName (i := t.id)
    · exact (get?_place slot false t.id).trans (if_pos rfl)
    · rw [idle]
      exact List.not_mem_nil
  · intro j member
    obtain ⟨u, there⟩ := fits.mentions j (parents_subset_mentions member)
    exact above there

/-- The subclass that is generated in the slot reserved next. -/
def subclassType (r : Registry) (base : TypeId) (bt : TypeInfo) : TypeInfo :=
  { TypeInfo.blank r.reserve.1 with
    name := bt.name ++ "$Subclass"
    superclass := some base
    constructors := r.reserve.2.inheritedConstructors r.reserve.1 base
    generated := true }

/-- All that asking for a generated subclass can do. -/
inductive SubclassOutcome (r : Registry) (base : TypeId) :
    EStateM.Result NativeError Registry TypeId → Prop where
  | existing {g : TypeId} (entry : r.subclasses.lookup base = some g) : SubclassOutcome r base
      (.ok g r)
  | refused (e : NativeError) : SubclassOutcome r base (.error e r)
  | taken (e : NativeError) : SubclassOutcome r base (.error e r.reserve.2)
  | made {bt : TypeInfo} (found : r.get? base = some bt) (isClass : bt.isClass)
      (isOpen : bt.modifiers.isFinal = false)
      (free : r.named? (subclassType r base bt).name = none) :
      SubclassOutcome r base
        (.ok r.reserve.1 { r.reserve.2.place (subclassType r base bt) false with
        names := ((subclassType r base bt).name, r.reserve.1) :: r.reserve.2.names
        subclasses := (base, r.reserve.1) :: r.reserve.2.subclasses })

theorem subclassBar?_none (free : subclassBar? t = none) :
    t.isClass = true ∧ t.modifiers.isFinal = false := by
  unfold subclassBar? at free
  split at free
  · cases free
  · split at free
    · cases free
    · next isClass =>
      split at free
      · cases free
      · next isOpen => exact ⟨by simpa using isClass, by simpa using isOpen⟩

theorem generateSubclass_outcome (r : Registry) (base : TypeId) :
    SubclassOutcome r base (generateSubclass base r).1 := by
  unfold generateSubclass
  split
  · exact .refused _
  · next bt required =>
    split
    · exact .refused _
    · next free =>
      split
      · next entry => exact .existing entry
      · dsimp only
        split
        · exact .taken _
        · next r₁ installed =>
          obtain ⟨unused, rfl⟩ := install_ok installed
          simp only [named?, (reserve_frame r).2.1] at unused
          obtain ⟨isClass, isOpen⟩ := subclassBar?_none free
          exact .made (require_ok required) isClass isOpen unused

/-- A generated subclass takes the same arguments as its base. -/
theorem fits_subclassType (coherent : Coherent r) (found : r.get? base = some bt)
    (isClass : bt.isClass)
    (isOpen : bt.modifiers.isFinal = false) : Fits r.reserve.2 (subclassType r base bt) := by
  have same := (reserve_frame r).1
  have inherited : ∀ {c}, c ∈ (subclassType r base bt).constructors →
      c.declaring = r.reserve.1 ∧ ∃ d ∈ bt.constructors, c.params = d.params := by
    intro c member
    simp only [subclassType, inheritedConstructors, constructors, same, found, List.mem_map,
      List.mem_filter] at member
    obtain ⟨d, ⟨declared, _⟩, rfl⟩ := member
    exact ⟨rfl, d, declared, rfl⟩
  constructor
  case mentions =>
    intro j member
    simp only [same]
    rcases List.mem_append.mp member with parent | memberType
    · have isBase : j = base := by
        simpa [TypeInfo.parents, TypeInfo.supers, subclassType, TypeInfo.blank,
          TypeInfo.component?] using parent
      exact ⟨bt, isBase ▸ found⟩
    · have inConstructor : ∃ c ∈ (subclassType r base bt).constructors, j ∈ c.params := by
        simpa [TypeInfo.memberTypes, subclassType, TypeInfo.blank] using memberType
      obtain ⟨c, declared, param⟩ := inConstructor
      obtain ⟨_, d, original, params⟩ := inherited declared
      refine (coherent.fits found).mentions j ?_
      simp only [TypeInfo.mentions, TypeInfo.memberTypes, List.mem_append, List.mem_flatMap]
      exact Or.inr (Or.inl (Or.inr ⟨d, original, params ▸ param⟩))
  case superclass =>
    intro s extended
    cases extended
    exact ⟨bt, (same base).trans found, isClass, isOpen⟩
  case interfaces =>
    intro j member
    cases member
  case component =>
    intro c array
    cases array
  case interface_alone =>
    intro interface
    cases interface
  case array_shape =>
    intro c array
    cases array
  case primitive_first =>
    intro primitive
    cases primitive
  case own_methods =>
    intro m member
    cases member
  case own_constructors => exact fun c member => (inherited member).1
  case own_fields =>
    intro f member
    cases member

theorem SubclassOutcome.settled (outcome : SubclassOutcome r base result) (before : Settled r) :
    Settled (stateAfter result) ∧ Extends r (stateAfter result) := by
  cases outcome with
  | existing entry => exact ⟨before, Extends.refl r⟩
  | refused e => exact ⟨before, Extends.refl r⟩
  | taken e => exact ⟨before.reserve, extends_reserve r⟩
  | made found isClass isOpen =>
    have slot := before.coherent.reserved
    have published := before.reserve.publishClass (t := subclassType r base _) slot
      (fits_subclassType before.coherent found isClass isOpen) rfl rfl
    refine ⟨⟨?_, published.ranked, published.idle⟩, (extends_reserve r).trans
      (extends_place slot false)⟩
    exact published.coherent.addSubclass (t := subclassType r base _)
      ((get?_place slot false _).trans (if_pos rfl)) rfl rfl

/-- The implementation that is generated in the slot reserved next. -/
def implementationType (r : Registry) (interface : TypeId) (it : TypeInfo) : TypeInfo :=
  { TypeInfo.blank r.reserve.1 with
    name := it.name ++ "$Implementation"
    superclass := some .object
    interfaces := [interface]
    constructors := [
      { declaring := r.reserve.1
        params := []
        modifiers := .plain
        variadic := false
        body := none }]
    generated := true }

/-- All that asking for a generated implementation can do. -/
inductive ImplementationOutcome (r : Registry) (interface : TypeId) :
    EStateM.Result NativeError Registry TypeId → Prop where
  | existing {g : TypeId} (entry : r.implementations.lookup interface = some g) :
      ImplementationOutcome r interface (.ok g r)
  | refused (e : NativeError) : ImplementationOutcome r interface (.error e r)
  | taken (e : NativeError) : ImplementationOutcome r interface (.error e r.reserve.2)
  | made {it : TypeInfo} (found : r.get? interface = some it) (isInterface : it.isInterface)
      (free : r.named? (implementationType r interface it).name = none) :
      ImplementationOutcome r interface
        (.ok r.reserve.1 { r.reserve.2.place (implementationType r interface it) false with
        names := ((implementationType r interface it).name, r.reserve.1) :: r.reserve.2.names
        implementations := (interface, r.reserve.1) :: r.reserve.2.implementations })

theorem generateImplementation_outcome (r : Registry) (interface : TypeId) :
    ImplementationOutcome r interface (generateImplementation interface r).1 := by
  unfold generateImplementation
  split
  · exact .refused _
  · next it required =>
    split
    · exact .refused _
    · next isInterface =>
      split
      · next entry => exact .existing entry
      · dsimp only
        split
        · exact .taken _
        · next r₁ installed =>
          obtain ⟨free, rfl⟩ := install_ok installed
          simp only [named?, (reserve_frame r).2.1] at free
          exact .made (require_ok required) (by simpa using isInterface) free

theorem fits_implementationType (coherent : Coherent r) (found : r.get? base = some bt)
    (isInterface : bt.isInterface) :
    Fits r.reserve.2 (implementationType r base bt) := by
  have same := (reserve_frame r).1
  constructor
  case mentions =>
    intro j member
    have named : j = .object ∨ j = base := by
      simpa [TypeInfo.mentions, TypeInfo.parents, TypeInfo.supers, TypeInfo.memberTypes,
        implementationType, TypeInfo.blank, TypeInfo.component?] using member
    simp only [same]
    rcases named with rfl | rfl
    · exact ⟨_, coherent.object.1⟩
    · exact ⟨bt, found⟩
  case superclass =>
    intro s extended
    cases extended
    exact ⟨_, (same .object).trans coherent.object.1, rfl, rfl⟩
  case interfaces =>
    intro j member
    cases List.mem_singleton.mp member
    exact ⟨bt, (same _).trans found, isInterface⟩
  case component =>
    intro c array
    cases array
  case interface_alone =>
    intro interface
    cases interface
  case array_shape =>
    intro c array
    cases array
  case primitive_first =>
    intro primitive
    cases primitive
  case own_methods =>
    intro m member
    cases member
  case own_constructors =>
    intro c member
    cases List.mem_singleton.mp member
    rfl
  case own_fields =>
    intro f member
    cases member

theorem ImplementationOutcome.settled (outcome : ImplementationOutcome r base result)
    (before : Settled r) :
    Settled (stateAfter result) ∧ Extends r (stateAfter result) := by
  cases outcome with
  | existing entry => exact ⟨before, Extends.refl r⟩
  | refused e => exact ⟨before, Extends.refl r⟩
  | taken e => exact ⟨before.reserve, extends_reserve r⟩
  | made found isInterface =>
    have slot := before.coherent.reserved
    have published := before.reserve.publishClass (t := implementationType r base _) slot
      (fits_implementationType before.coherent found isInterface) rfl rfl
    refine ⟨⟨?_, published.ranked, published.idle⟩, (extends_reserve r).trans
      (extends_place slot false)⟩
    exact published.coherent.addImplementation (t := implementationType r base _)
      ((get?_place slot false _).trans (if_pos rfl)) rfl rfl

end Interop.Registry
