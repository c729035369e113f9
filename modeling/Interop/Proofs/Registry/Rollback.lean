import Interop.Proofs.Registry.Naming

/-!
Definitions that fail. While references are resolved, a definition has taken a slot, and arrays over
the type have taken more; arrays of other types may have been published on the way. Failure takes
back the slots of the first kind and leaves the arrays of the second kind, so that the registry is
as it was but for those. The slots that come back are handed out again before the table grows.
-/
namespace Interop.Registry

variable {r r' r'' origin : Registry} {i c id : TypeId} {t : TypeInfo}

/-- From one registry to the other slots have only been taken: free ones from the front of the list,
and new ones at the end of the table once no slot is free. -/
structure Draws (r r' : Registry) : Prop where
  free : r'.free <:+ r.free
  size : r.size ≤ r'.size
  grown : r.size < r'.size → r'.free = []

theorem draws_of_same (free : r'.free = r.free) (size : r'.slots.length = r.slots.length) :
    Draws r r' := by
  refine ⟨by simp [free], by simp [Registry.size, size], ?_⟩
  simp [Registry.size, size]

theorem Draws.refl (r : Registry) : Draws r r := draws_of_same rfl rfl

theorem Draws.trans (first : Draws r r') (second : Draws r' r'') : Draws r r'' where
  free := second.free.trans first.free
  size := first.size.trans second.size
  grown less := by
    by_cases early : r.size < r'.size
    · have suffix := second.free
      rw [first.grown early, List.suffix_nil] at suffix
      exact suffix
    · exact second.grown (by omega)

theorem draws_reserve (r : Registry) : Draws r r.reserve.2 := by
  unfold reserve
  split
  · next id rest free => exact ⟨by simp [free], by simp [Registry.size], by simp [Registry.size]⟩
  · next free => exact ⟨by simp, by simp [Registry.size], fun _ => free⟩

theorem draws_place (r : Registry) (t : TypeInfo) (waiting : Bool) :
    Draws r (r.reserve.2.place t waiting) :=
  (draws_reserve r).trans (draws_of_same rfl (by simp [place, fill_length]))

theorem draws_arrayOf (c : TypeId) (r : Registry) : Draws r (stateAfter (arrayOf c r)) := by
  have outcome := arrayOf_outcome r c
  generalize arrayOf c r = result at outcome
  cases outcome with
  | existing entry => exact .refl r
  | refused absent reason => exact .refl r
  | waiting absent found notVoid waits => exact draws_place r _ true
  | taken absent found settled => exact draws_reserve r
  | published absent found notVoid settled free =>
    exact (draws_place r _ false).trans (draws_of_same rfl rfl)

theorem draws_resolved (resolver : TypeId → Resolver) (r : Registry) :
    Draws r (r.resolved resolver).2 := by
  have begun : Draws r r.beginDefinition.2 := draws_place r (.blank r.reserve.1) true
  exact (resolver _).keeps (fun r' c between => between.trans (draws_arrayOf c r')) begun

theorem draws_generateSubclass (base : TypeId) (r : Registry) :
    Draws r (stateAfter (r.generateSubclass base).1) := by
  have outcome := generateSubclass_outcome r base
  generalize (r.generateSubclass base).1 = result at outcome
  cases outcome with
  | existing entry => exact .refl r
  | refused e => exact .refl r
  | taken e => exact draws_reserve r
  | made found isClass isOpen free =>
    exact (draws_place r _ false).trans (draws_of_same rfl rfl)

theorem draws_generateImplementation (interface : TypeId) (r : Registry) :
    Draws r (stateAfter (r.generateImplementation interface).1) := by
  have outcome := generateImplementation_outcome r interface
  generalize (r.generateImplementation interface).1 = result at outcome
  cases outcome with
  | existing entry => exact .refl r
  | refused e => exact .refl r
  | taken e => exact draws_reserve r
  | made found isInterface free => exact (draws_place r _ false).trans (draws_of_same rfl rfl)

theorem slots_publishArrays (fuel : Nat) (c : TypeId) (r : Registry) :
    (publishArrays fuel c r).1.size = r.size ∧ (publishArrays fuel c r).1.free = r.free := by
  induction fuel generalizing c r with
  | zero => exact ⟨rfl, rfl⟩
  | succ fuel ih =>
    unfold publishArrays
    split
    · exact ⟨rfl, rfl⟩
    · split
      · dsimp only
        split
        · next installed =>
          obtain ⟨_, rfl⟩ := install_ok installed
          obtain ⟨size, free⟩ := ih _ _
          exact ⟨size.trans (fill_length _ _), free⟩
        · exact ih _ _
      · exact ⟨rfl, rfl⟩

theorem slots_completeDefinition (id : TypeId) (draft : TypeDraft) (r : Registry) :
    (stateAfter (completeDefinition id draft r).1).size = r.size ∧
      r.free <:+ (stateAfter (completeDefinition id draft r).1).free := by
  have outcome := completion_outcome r id draft
  generalize (completeDefinition id draft r).1 = result at outcome
  cases outcome with
  | released e =>
    refine ⟨?_, List.suffix_append _ _⟩
    simp [stateAfter, Registry.size, release, emptied_length, withHeader, fill]
  | published checked free =>
    obtain ⟨size, free⟩ := slots_publishArrays _ _ _
    refine ⟨size.trans (by simp [Registry.size, withHeader, fill]), ?_⟩
    exact free.symm ▸ List.suffix_refl r.free

namespace Operation

/-- The registry of an operation when it has taken all the slots that it takes: for a definition,
when its references are resolved. -/
def peak (r : Registry) : Operation → Registry
  | define draft =>
    match r.named? draft.name with
    | some _ => r
    | none => (r.resolved fun _ => .done draft).2
  | defineWith resolver => (r.resolved resolver).2
  | operation => operation.apply r

/-- The operation takes the slot off the free list. -/
def Takes (r : Registry) (operation : Operation) (i : TypeId) : Prop :=
  i ∈ r.free ∧ i ∉ (operation.peak r).free

theorem draws_peak (operation : Operation) (r : Registry) : Draws r (operation.peak r) := by
  have arrays : ∀ r' c, Draws r r' → Draws r (stateAfter (Registry.arrayOf c r')) :=
    fun r' c between => between.trans (draws_arrayOf c r')
  cases operation with
  | define draft =>
    cases taken : r.named? draft.name with
    | some _ =>
      simp only [peak, taken]
      exact .refl r
    | none =>
      simp only [peak, taken]
      exact draws_resolved _ r
  | defineWith resolver => exact draws_resolved resolver r
  | lookup name => exact lookup_keeps arrays name (.refl r)
  | arrayOf component => exact draws_arrayOf component r
  | newArray world component elements =>
    simp only [peak, Operation.apply, newArray_registry]
    exact draws_arrayOf component r
  | generateSubclass base => exact draws_generateSubclass base r
  | generateImplementation interface => exact draws_generateImplementation interface r

/-- After that the table keeps its size, and slots only come back. -/
theorem slots_after_peak (operation : Operation) (r : Registry) :
    (operation.apply r).size = (operation.peak r).size ∧
      (operation.peak r).free <:+ (operation.apply r).free := by
  cases operation with
  | define draft =>
    cases taken : r.named? draft.name with
    | some _ =>
      simp only [Operation.apply, define_eq, peak, taken]
      exact ⟨rfl, List.suffix_refl _⟩
    | none =>
      simp only [Operation.apply, define_eq, peak, taken]
      exact slots_completeDefinition _ _ _
  | defineWith resolver => exact slots_completeDefinition _ _ _
  | _ => exact ⟨rfl, List.suffix_refl _⟩

end Operation

/-- If the table has grown in the end, every slot that was free has been taken on the way. -/
theorem taken_before_growth (free : i ∈ r.free) (later : List Operation)
    (grown : r.size < (later.foldl Operation.apply r).size) :
    ∃ front operation back, later = front ++ operation :: back ∧
      operation.Takes (front.foldl Operation.apply r) i := by
  induction later generalizing r with
  | nil => exact absurd grown (Nat.lt_irrefl _)
  | cons operation rest ih =>
    by_cases left : i ∈ (operation.peak r).free
    · -- A slot that is left over means that the table did not have to grow.
      have draws := operation.draws_peak r
      obtain ⟨size, back⟩ := operation.slots_after_peak r
      have unchanged : (operation.apply r).size = r.size := by
        have notGrown : ¬r.size < (operation.peak r).size := by
          intro less
          simp [draws.grown less] at left
        have := draws.size
        omega
      rw [List.foldl_cons, ← unchanged] at grown
      obtain ⟨front, later, after, split, taken⟩ := ih (back.subset left) grown
      exact ⟨operation :: front, later, after, by simp [split], taken⟩
    · exact ⟨[], operation, rest, rfl, free, left⟩

/-- The type `base`, or an array over it, however deeply nested. -/
inductive NestedOver (r : Registry) (base : TypeId) : TypeId → Prop where
  | base : NestedOver r base base
  | array {c a : TypeId} (inner : NestedOver r base c) (entry : r.arrays.lookup c = some a) :
      NestedOver r base a

/-- An array over a type of `r` that `r` does not have, published by the time of `between`. -/
structure AddedArray (r between : Registry) (a : TypeId) : Prop where
  new : ¬Live r a
  published : ∃ t, Published between a t
  nested : ∃ base, Live r base ∧ NestedOver between base a

/-- New names stand for new types, and no type has been generated. -/
structure NamesArrays (origin r : Registry) : Prop where
  kept : KeepsNames origin r
  names : ∀ {n i}, r.named? n = some i → origin.named? n = some i ∨ origin.get? i = none
  subclasses : r.subclasses = origin.subclasses
  implementations : r.implementations = origin.implementations

theorem Coherent.unused_reserve (coherent : Coherent r) (larger : Extends origin r) :
    origin.get? r.reserve.1 = none := by
  rw [Option.eq_none_iff_forall_ne_some]
  intro t found
  have there := larger found
  rw [← (reserve_frame r).1, coherent.reserved.empty] at there
  cases there

theorem NamesArrays.refl (r : Registry) : NamesArrays r r :=
  ⟨.refl r, Or.inl, rfl, rfl⟩

theorem NamesArrays.reserve (before : NamesArrays origin r) : NamesArrays origin r.reserve.2 := by
  obtain ⟨_, names, _, subclasses, implementations, _⟩ := reserve_frame r
  refine ⟨before.kept.trans (keepsNames_reserve r), ?_, subclasses.trans before.subclasses,
    implementations.trans before.implementations⟩
  intro n i named
  rw [named?, names] at named
  exact before.names named

theorem NamesArrays.arrayOf (before : NamesArrays origin r) (coherent : Coherent r)
    (larger : Extends origin r) (c : TypeId) :
    NamesArrays origin (stateAfter (arrayOf c r)) := by
  have outcome := arrayOf_outcome r c
  have kept := before.kept.trans (keepsNames_arrayOf c r)
  have reserved := before.reserve
  generalize Registry.arrayOf c r = result at outcome kept
  cases outcome with
  | existing entry => exact before
  | refused absent reason => exact before
  | waiting absent found notVoid waits =>
    exact ⟨kept, reserved.names, reserved.subclasses, reserved.implementations⟩
  | taken absent found settled => exact reserved
  | @published ct absent found notVoid settled free =>
    refine ⟨kept, ?_, reserved.subclasses, reserved.implementations⟩
    intro n i named
    have named := (named?_cons (nextArray r c ct).name n r.reserve.1).symm.trans named
    split at named
    · cases named
      exact Or.inr (coherent.unused_reserve larger)
    · exact reserved.names named

theorem NamesArrays.trans (first : NamesArrays r r') (larger : Extends r r')
    (second : NamesArrays r' r'') : NamesArrays r r'' where
  kept := first.kept.trans second.kept
  names := by
    intro n i named
    rcases second.names named with old | new
    · exact first.names old
    · refine Or.inr (Option.eq_none_iff_forall_ne_some.mpr fun t found => ?_)
      rw [larger found] at new
      cases new
  subclasses := second.subclasses.trans first.subclasses
  implementations := second.implementations.trans first.implementations

/-- The second registry has arrays that the first has not, and is otherwise the same. -/
structure GainsArrays (r r' : Registry) : Prop where
  settled : Settled r'
  kept : Extends r r'
  arrays : ∀ {i t}, r'.get? i = some t → t.component? = none → r.get? i = some t
  names : NamesArrays r r'

theorem GainsArrays.refl (settled : Settled r) : GainsArrays r r :=
  ⟨settled, .refl r, fun found _ => found, .refl r⟩

theorem GainsArrays.trans (first : GainsArrays r r') (second : GainsArrays r' r'') :
    GainsArrays r r'' where
  settled := second.settled
  kept := first.kept.trans second.kept
  arrays found plain := first.arrays (second.arrays found plain) plain
  names := first.names.trans first.kept second.names

theorem GainsArrays.arrayOf (before : GainsArrays r r') (c : TypeId) :
    GainsArrays r (stateAfter (arrayOf c r')) where
  settled := before.settled.arrayOf c
  kept := before.kept.trans (before.settled.extends_arrayOf c)
  arrays found plain :=
    before.arrays ((arrayOf_outcome r' c).known before.settled.coherent found plain) plain
  names := before.names.arrayOf before.settled.coherent before.kept c

theorem GainsArrays.lookup (settled : Settled r) (name : String) :
    GainsArrays r (r.lookup name).2 :=
  lookup_keeps (fun _ c before => before.arrayOf c) name (.refl settled)

theorem Settled.namesArrays (settled : Settled r) (resolver : TypeId → Resolver) :
    Defining r r.beginDefinition.1 (r.resolved resolver).2 ∧
      NamesArrays r (r.resolved resolver).2 := by
  have reserved := (NamesArrays.refl r).reserve
  have begun : NamesArrays r r.beginDefinition.2 :=
    ⟨reserved.kept, reserved.names, reserved.subclasses, reserved.implementations⟩
  have step : ∀ r' c, Defining r r.beginDefinition.1 r' ∧ NamesArrays r r' →
      Defining r r.beginDefinition.1 (stateAfter (Registry.arrayOf c r')) ∧
        NamesArrays r (stateAfter (Registry.arrayOf c r')) :=
    fun r' c between =>
      ⟨between.1.arrayOf c, between.2.arrayOf between.1.coherent between.1.grows c⟩
  exact (resolver _).keeps step ⟨settled.beginDefinition, begun⟩

/-- Every published type is an array over one that was there. -/
theorem Defining.nested (defining : Defining origin id r) (published : Published r i t) :
    ∃ base, Live origin base ∧ NestedOver r base i := by
  obtain ⟨rank, ranked, _⟩ := defining.ranked
  -- The component of an array ranks below it.
  induction bound : rank i using Nat.strong_induction_on generalizing i t with
  | _ n ih =>
  obtain ⟨found, settled⟩ := published
  cases component : t.component? with
  | none =>
    have different : i ≠ id := by
      rintro rfl
      exact settled defining.waits
    exact ⟨i, ⟨t, defining.known found different component⟩, .base⟩
  | some c =>
    have array := TypeInfo.component?_eq.mp component
    have mentioned : c ∈ t.mentions := TypeInfo.component_mem_mentions array
    obtain ⟨u, there⟩ := (defining.coherent.fits found).mentions c mentioned
    have lower : rank c < rank i := ranked found c (by simp [TypeInfo.parents, component])
    obtain ⟨base, live, nested⟩ :=
      ih (rank c) (by omega) ⟨there, defining.closed found settled c mentioned⟩ rfl
    exact ⟨base, live, nested.array (defining.coherent.arrays.mpr ⟨t, found, array⟩)⟩

/-- The type under definition and the arrays over it are what waits. -/
theorem Defining.pending_of_nested (defining : Defining origin id r) (nested : NestedOver r id i) :
    i ∈ r.pending := by
  induction nested with
  | base => exact defining.waits
  | array inner entry ih =>
    obtain ⟨t, found, array⟩ := defining.coherent.arrays.mp entry
    by_contra settled
    exact defining.closed found settled _ (TypeInfo.component_mem_mentions array) ih

/-- The registry `after` is what a definition leaves that began in `r` and failed. -/
structure RolledBack (r : Registry) (resolver : TypeId → Resolver) (after : Registry) : Prop where
  /-- Apart from arrays that resolving has published over types of `r`, all is as it was. -/
  types : ∀ {i}, ¬AddedArray r (r.resolved resolver).2 i → after.get? i = r.get? i
  names : ∀ {n i}, ¬AddedArray r (r.resolved resolver).2 i →
    (after.named? n = some i ↔ r.named? n = some i)
  arrays : ∀ {c a}, ¬AddedArray r (r.resolved resolver).2 a →
    (after.arrays.lookup c = some a ↔ r.arrays.lookup c = some a)
  subclasses : after.subclasses = r.subclasses
  implementations : after.implementations = r.implementations
  /-- The slots of the type and of all arrays over it are empty again and free, once each. -/
  released : ∀ {i}, NestedOver (r.resolved resolver).2 r.beginDefinition.1 i →
    r.get? i = none ∧ after.get? i = none ∧ after.free.count i = 1
  idle : after.pending = []
  /-- They are taken again before the table grows. -/
  reused : ∀ {i later}, NestedOver (r.resolved resolver).2 r.beginDefinition.1 i →
    after.size < (later.foldl Operation.apply after).size →
      ∃ front operation back, later = front ++ operation :: back ∧
        operation.Takes (front.foldl Operation.apply after) i

/-- What is there after the failure had been published when the references were resolved. -/
theorem Defining.get?_released (defining : Defining origin id r) (draft : TypeDraft) (i : TypeId) :
    ((r.withHeader id draft).release id).get? i = if i ∈ r.pending then none else r.get? i := by
  have pending : (r.withHeader id draft).pending = r.pending := rfl
  rw [(defining.withHeader draft).get?_release, pending]
  refine ite_congr rfl (fun _ => rfl) fun settled => ?_
  refine get?_fill_other ?_
  rintro rfl
  exact settled defining.waits

theorem Defining.free_released (defining : Defining origin id r) (draft : TypeDraft) :
    ((r.withHeader id draft).release id).free = r.pending ++ r.free := by
  change _ = (r.withHeader id draft).pending ++ _
  rw [(defining.withHeader draft).detach.1]
  rfl

theorem Defining.added_of_released (defining : Defining origin id r) (draft : TypeDraft)
    (found : ((r.withHeader id draft).release id).get? i = some t) (new : origin.get? i = none) :
    AddedArray origin r i := by
  rw [defining.get?_released] at found
  split at found
  · cases found
  · next unwaiting =>
    have published : Published r i t := ⟨found, unwaiting⟩
    exact ⟨by simp [Live, new], ⟨t, published⟩, defining.nested published⟩

theorem Defining.get?_rolledBack (defining : Defining origin id r) (draft : TypeDraft)
    (notAdded : ¬AddedArray origin r i) :
    ((r.withHeader id draft).release id).get? i = origin.get? i := by
  cases before : origin.get? i with
  | some t => exact (defining.withHeader draft).release.2.1 before
  | none =>
    rw [Option.eq_none_iff_forall_ne_some]
    exact fun t found => notAdded (defining.added_of_released draft found before)

/-- A definition that began in a settled registry and failed. -/
theorem Settled.rolledBack (settled : Settled r) (resolver : TypeId → Resolver)
    (draft : TypeDraft) :
    RolledBack r resolver
      (((r.resolved resolver).2.withHeader r.beginDefinition.1 draft).release
        r.beginDefinition.1) := by
  obtain ⟨defining, gained⟩ := settled.namesArrays resolver
  obtain ⟨settled', _⟩ := (defining.withHeader draft).release
  have released : ∀ {i}, NestedOver (r.resolved resolver).2 r.beginDefinition.1 i →
      i ∈ (((r.resolved resolver).2.withHeader r.beginDefinition.1 draft).release
        r.beginDefinition.1).free := by
    intro i nested
    rw [defining.free_released]
    exact List.mem_append_left _ (defining.pending_of_nested nested)
  constructor
  case types => exact defining.get?_rolledBack draft
  case names =>
    intro n i notAdded
    constructor
    · intro named
      refine (gained.names named).resolve_right fun new => notAdded ?_
      obtain ⟨t, found, _⟩ := settled'.coherent.names named
      exact defining.added_of_released draft found new
    · exact fun named => gained.kept named
  case arrays =>
    intro c a notAdded
    rw [settled'.coherent.arrays, settled.coherent.arrays, defining.get?_rolledBack draft notAdded]
  case subclasses => exact gained.subclasses
  case implementations => exact gained.implementations
  case released =>
    intro i nested
    have waits := defining.pending_of_nested nested
    refine ⟨defining.fresh waits, by rw [defining.get?_released, if_pos waits], ?_⟩
    exact List.count_eq_one_of_mem settled'.coherent.free_nodup (released nested)
  case idle => exact settled'.idle
  case reused => exact fun nested grown => taken_before_growth (released nested) _ grown

/-- A definition that fails has given its slots back, and everything but arrays of published types
is as it was. A name that is taken is refused before a slot is. -/
theorem failed_definition_rolls_back (operations : List Operation) :
    (∀ draft e after, ((afterAll operations).define draft).1 = .error e after →
      (after = afterAll operations ∧ ∃ i, (afterAll operations).named? draft.name = some i) ∨
        RolledBack (afterAll operations) (fun _ => .done draft) after) ∧
    ∀ resolver e after, ((afterAll operations).defineWith resolver).1 = .error e after →
      RolledBack (afterAll operations) resolver after := by
  have settled := settled_afterAll operations
  generalize afterAll operations = r at settled
  have withResolver : ∀ resolver e after, (r.defineWith resolver).1 = .error e after →
      RolledBack r resolver after := by
    intro resolver e after failed
    have outcome := completion_outcome (r.resolved resolver).2 r.beginDefinition.1
      (r.resolved resolver).1
    change CompletionOutcome _ _ _ (r.defineWith resolver).1 at outcome
    rw [failed] at outcome
    cases outcome
    exact settled.rolledBack resolver _
  refine ⟨?_, withResolver⟩
  intro draft e after failed
  rw [define_eq] at failed
  split at failed
  · next i taken =>
    cases failed
    exact Or.inl ⟨rfl, i, taken⟩
  · exact Or.inr (withResolver _ e after failed)

/-- A class that extends itself and has asked for arrays over it and for an array of strings. -/
def tangledResolver (this : TypeId) : Resolver :=
  .arrayOf this fun array =>
    .lookup "core.String[]" fun _ =>
      .arrayOf (array.toOption.getD this) fun _ =>
        .done { bareDraft "t.Tangled" with superclass := some this }

/-- Three slots come back, and the array of strings stays. -/
theorem rolled_back_tangled : ∃ after,
    (initial.defineWith tangledResolver).1 =
      .error (.notInheritable "t.Tangled" .extendsItself) after ∧
    RolledBack initial tangledResolver after ∧
    after.free = [⟨23⟩, ⟨21⟩, ⟨20⟩] ∧ after.named? "core.String[]" = some ⟨22⟩ := by
  refine ⟨_, rfl, ?_, ?_⟩
  · exact (failed_definition_rolls_back []).2 tangledResolver _ _ rfl
  · decide +kernel

end Interop.Registry
