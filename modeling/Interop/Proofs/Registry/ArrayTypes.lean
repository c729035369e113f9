import Interop.Proofs.Registry.Ranks

/-!
Array types are made on first use. `ArrayOutcome` says all that asking for one can do: find the
array that is there, refuse, or place a new array type, which waits for its name if its component
does. Every fact about asking for arrays, and about looking up names, is read off it.
-/
namespace Interop

/-- The state that a computation leaves behind, whether it succeeds or fails. -/
def stateAfter {ε σ α : Type} : EStateM.Result ε σ α → σ
  | .ok _ s => s
  | .error _ s => s

namespace Registry

variable {r r' : Registry} {rank : TypeId → Nat} {i a c id : TypeId} {t ct : TypeInfo}
    {name : String}
  {result : EStateM.Result NativeError Registry TypeId}

theorem component?_arrayType (id c : TypeId) (name : String) :
    (arrayType id c name).component? = some c := rfl

theorem supers_arrayType (id c : TypeId) (name : String) :
    (arrayType id c name).supers = [.object] := rfl

theorem parents_arrayType (id c : TypeId) (name : String) :
    (arrayType id c name).parents = [.object, c] := rfl

theorem mentions_arrayType (id c : TypeId) (name : String) :
    (arrayType id c name).mentions = [.object, c] := rfl

/-- An array type fits wherever its component is there. -/
theorem fits_arrayType (coherent : Coherent r) (found : r.get? c = some ct)
    (notVoid : ct.primitiveKind? ≠ some .void) (id : TypeId) (name : String) :
    Fits r (arrayType id c name) where
  mentions j member := by
    rw [mentions_arrayType] at member
    rcases List.mem_pair.mp member with rfl | rfl
    · exact ⟨_, coherent.object.1⟩
    · exact ⟨ct, found⟩
  superclass s extended := by
    cases extended
    exact ⟨_, coherent.object.1, rfl, rfl⟩
  interfaces j member := by cases member
  component d array := by
    cases array
    exact ⟨ct, found, notVoid⟩
  interface_alone isInterface := by cases isInterface
  array_shape d array := by
    cases array
    rfl
  primitive_first primitive := by cases primitive
  own_methods m member := by cases member
  own_constructors m member := by cases member
  own_fields m member := by cases member

/-- The array type that is placed for a component in the slot reserved next. -/
def nextArray (r : Registry) (c : TypeId) (ct : TypeInfo) : TypeInfo :=
  arrayType r.reserve.1 c (ct.name ++ arraySuffix)

inductive ArrayOutcome (r : Registry) (c : TypeId) :
    EStateM.Result NativeError Registry TypeId → Prop where
  | existing {a : TypeId} (entry : r.arrays.lookup c = some a) : ArrayOutcome r c (.ok a r)
  | refused {e : NativeError} (absent : r.arrays.lookup c = none)
      (reason : r.get? c = none ∨ r.primitiveKind? c = some .void) : ArrayOutcome r c (.error e r)
  | waiting {ct : TypeInfo} (absent : r.arrays.lookup c = none) (found : r.get? c = some ct)
      (notVoid : ct.primitiveKind? ≠ some .void) (waits : c ∈ r.pending) :
      ArrayOutcome r c (.ok r.reserve.1 (r.reserve.2.place (nextArray r c ct) true))
  | taken {e : NativeError} {ct : TypeInfo} (absent : r.arrays.lookup c = none)
      (found : r.get? c = some ct)
      (settled : c ∉ r.pending) : ArrayOutcome r c (.error e r.reserve.2)
  | published {ct : TypeInfo} (absent : r.arrays.lookup c = none) (found : r.get? c = some ct)
      (notVoid : ct.primitiveKind? ≠ some .void) (settled : c ∉ r.pending)
      (free : r.named? (nextArray r c ct).name = none) :
      ArrayOutcome r c (.ok r.reserve.1 { r.reserve.2.place (nextArray r c ct) false with
        names := ((nextArray r c ct).name, r.reserve.1) :: r.reserve.2.names })

theorem arrayOf_outcome (r : Registry) (c : TypeId) : ArrayOutcome r c (arrayOf c r) := by
  unfold arrayOf
  split
  · next a entry => exact .existing entry
  · next absent =>
    split
    · next e failure =>
      refine .refused absent (Or.inl ?_)
      unfold require at failure
      split at failure
      · cases failure
      · next missing => exact missing
    · next ct success =>
      have found := require_ok success
      split
      · next void => exact .refused absent (Or.inr (by simp [primitiveKind?, found, void]))
      · next notVoid =>
        have pending : r.reserve.2.isPending c = r.isPending c := by
          simp [isPending, (reserve_frame r).2.2.2.2.2]
        dsimp only
        split
        · next waits =>
          rw [pending] at waits
          exact .waiting absent found notVoid (by simpa [isPending] using waits)
        · next settled =>
          rw [pending] at settled
          have settled : c ∉ r.pending := by simpa [isPending] using settled
          split
          · exact .taken absent found settled
          · next installed success =>
            obtain ⟨free, rfl⟩ := install_ok success
            simp only [named?, (reserve_frame r).2.1] at free
            exact .published absent found notVoid settled free

theorem Coherent.placeArray (before : Coherent r) (slot : Reserved r a)
    (absent : r.arrays.lookup c = none)
    (found : r.get? c = some ct) (notVoid : ct.primitiveKind? ≠ some .void) (name : String)
    (waiting : Bool) :
    Coherent (r.place (arrayType a c name) waiting) := by
  apply before.place slot (fits_arrayType before found notVoid a name)
  · intro d array
    cases array
    exact absent
  · intro _
    rfl
  · intro s member
    rw [supers_arrayType, List.mem_singleton] at member
    subst member
    exact before.object.2
  · intro isClass
    cases isClass

/-- Ranks can be kept for all types but the new array, and no class or interface is new. -/
theorem Ranked.placeArray (ranked : Ranked r rank) (before : Coherent r) (slot : Reserved r a)
    (found : r.get? c = some ct) (notVoid : ct.primitiveKind? ≠ some .void) (name : String)
    (waiting : Bool) :
    ∃ rank', Ranked (r.place (arrayType a c name) waiting) rank' ∧
      ∀ {i t}, (r.place (arrayType a c name) waiting).get? i = some t → t.component? = none →
        r.get? i = some t ∧ rank' i = rank i := by
  refine ⟨_, ranked.place before slot waiting (fits_arrayType before found notVoid a name)
    (max (rank .object) (rank c) + 1) ?_, ?_⟩
  · intro j member
    rw [parents_arrayType] at member
    rcases List.mem_pair.mp member with rfl | rfl
    · omega
    · omega
  · intro i t there noArray
    rw [get?_place slot] at there
    split at there
    · cases there
      cases noArray
    · next different => exact ⟨there, Function.update_of_ne different _ _⟩

/-- An array of a type outside of a definition is published, also when something is under
definition. -/
theorem Coherent.publishArray (before : Coherent r) (slot : Reserved r a)
    (absent : r.arrays.lookup c = none)
    (found : r.get? c = some ct) (notVoid : ct.primitiveKind? ≠ some .void) (name : String) :
    Coherent { r.place (arrayType a c name) false with names := (name, a) :: r.names } := by
  have placed := before.placeArray slot absent found notVoid name false
  apply placed.addName (i := a) (t := arrayType a c name)
  · exact (get?_place slot false _).trans (if_pos rfl)
  · rw [mem_pending_place]
    rintro (⟨never, _⟩ | waits)
    · cases never
    · obtain ⟨u, there, _⟩ := before.pending waits
      exact slot.ne_of_live there rfl

theorem ArrayOutcome.coherent (outcome : ArrayOutcome r c result) (before : Coherent r) :
    Coherent (stateAfter result) := by
  obtain ⟨same, _, arrays, _⟩ := reserve_frame r
  cases outcome with
  | existing entry => exact before
  | refused absent reason => exact before
  | waiting absent found notVoid waits =>
    exact before.reserve.placeArray before.reserved (arrays ▸ absent)
      (same c ▸ found) notVoid _ true
  | taken absent found settled => exact before.reserve
  | published absent found notVoid settled free =>
    exact before.reserve.publishArray before.reserved (arrays ▸ absent) (same c ▸ found) notVoid _

theorem ArrayOutcome.extends (outcome : ArrayOutcome r c result) (before : Coherent r) :
    Extends r (stateAfter result) := by
  cases outcome with
  | existing entry => exact Extends.refl r
  | refused absent reason => exact Extends.refl r
  | waiting absent found notVoid waits =>
    exact (extends_reserve r).trans (extends_place before.reserved true)
  | taken absent found settled => exact extends_reserve r
  | published absent found notVoid settled free =>
    exact (extends_reserve r).trans (extends_place before.reserved false)

theorem ArrayOutcome.ranked (outcome : ArrayOutcome r c result) (before : Coherent r)
    (ranked : Ranked r rank) :
    ∃ rank', Ranked (stateAfter result) rank' := by
  have same := (reserve_frame r).1
  have reserved := ranked.congr same
  cases outcome with
  | existing entry => exact ⟨rank, ranked⟩
  | refused absent reason => exact ⟨rank, ranked⟩
  | waiting absent found notVoid waits =>
    obtain ⟨rank', placed, _⟩ := reserved.placeArray before.reserve before.reserved
        (same c ▸ found) notVoid _ true
    exact ⟨rank', placed⟩
  | taken absent found settled => exact ⟨rank, reserved⟩
  | published absent found notVoid settled free =>
    obtain ⟨rank', placed, _⟩ := reserved.placeArray before.reserve before.reserved
        (same c ▸ found) notVoid _ false
    exact ⟨rank', placed⟩

/-- Asking for arrays puts nothing under definition that is not over something under definition. -/
theorem ArrayOutcome.pending (outcome : ArrayOutcome r c result) (settled : c ∉ r.pending) :
    (stateAfter result).pending = r.pending := by
  have same := (reserve_frame r).2.2.2.2.2
  cases outcome with
  | existing entry => rfl
  | refused absent reason => rfl
  | waiting absent found notVoid waits => exact absurd waits settled
  | taken absent found settled => exact same
  | published absent found notVoid settled free => exact same

/-- Asking for an array brings no other type than arrays. -/
theorem ArrayOutcome.known (outcome : ArrayOutcome r c result) (before : Coherent r)
    (there : (stateAfter result).get? i = some t) (noArray : t.component? = none) :
    r.get? i = some t := by
  have same := (reserve_frame r).1
  have placed : ∀ ct waiting, (r.reserve.2.place (nextArray r c ct) waiting).get? i = some t →
      r.get? i = some t := by
    intro ct waiting there
    rw [get?_place before.reserved] at there
    split at there
    · cases there
      cases noArray
    · exact (same i).symm.trans there
  cases outcome with
  | existing entry => exact there
  | refused absent reason => exact there
  | waiting absent found notVoid waits => exact placed _ true there
  | taken absent found settled => exact (same i).symm.trans there
  | published absent found notVoid settled free => exact placed _ false there

/-- An array that is given is the array of its component. -/
theorem ArrayOutcome.lookup (outcome : ArrayOutcome r c (.ok a r')) :
    r'.arrays.lookup c = some a := by
  cases outcome with
  | existing entry => exact entry
  | @waiting ct absent found notVoid waits =>
    rw [lookup_arrays_place (t := nextArray r c ct) true c]
    exact if_pos rfl
  | @published ct absent found notVoid settled free =>
    refine (lookup_arrays_place (r := r.reserve.2) (t := nextArray r c ct) false c).trans ?_
    exact if_pos rfl

theorem Settled.arrayOf (settled : Settled r) (c : TypeId) :
    Settled (stateAfter (arrayOf c r)) := by
  have outcome := arrayOf_outcome r c
  obtain ⟨rank, ranked⟩ := settled.ranked
  obtain ⟨rank', ranked'⟩ := outcome.ranked settled.coherent ranked
  refine ⟨outcome.coherent settled.coherent, ⟨rank', ranked'⟩, ?_⟩
  rw [outcome.pending (by simp [settled.idle])]
  exact settled.idle

theorem Settled.extends_arrayOf (settled : Settled r) (c : TypeId) :
    Extends r (stateAfter (Registry.arrayOf c r)) :=
  (arrayOf_outcome r c).extends settled.coherent

/-- In a settled registry, asking for the array of a component that has one changes nothing. -/
theorem arrayOf_existing (entry : r.arrays.lookup c = some a) : arrayOf c r = .ok a r := by
  simp [Registry.arrayOf, entry]

end Registry

end Interop
