import Interop.Proofs.Registry.Rollback

/-!
Requests that are refused. Asking for an array type or a generated type takes a slot before it is
known whether the name is free. A refusal for any other reason changes nothing. A refusal because of
the name keeps the slot: it stays empty and is not handed out again. Slots are lost in no other way,
so the history of a registry tells which of its slots are lost.
-/
namespace Interop.Registry

variable {r r' r'' : Registry} {i c id base interface : TypeId} {t : TypeInfo} {e : NativeError}
  {n : String} {gone later : List TypeId}

/-- A slot of the table that holds no type and will not be handed out. -/
def Lost (r : Registry) (i : TypeId) : Prop := i.index < r.size ∧ r.get? i = none ∧ i ∉ r.free

/-- From one registry to the other exactly the slots of the list are lost, each of them once. -/
structure Loses (r : Registry) (gone : List TypeId) (r' : Registry) : Prop where
  lost : ∀ i, Lost r' i ↔ Lost r i ∨ i ∈ gone
  fresh : ∀ i ∈ gone, ¬Lost r i
  nodup : gone.Nodup

theorem loses_nothing (same : ∀ i, Lost r' i ↔ Lost r i) : Loses r [] r' :=
  ⟨by simp [same], by simp, .nil⟩

theorem Loses.refl (r : Registry) : Loses r [] r := loses_nothing fun _ => Iff.rfl

theorem Loses.trans (first : Loses r gone r') (second : Loses r' later r'') :
    Loses r (gone ++ later) r'' where
  lost i := by rw [second.lost, first.lost, List.mem_append, or_assoc]
  fresh i member := by
    rcases List.mem_append.mp member with early | late
    · exact first.fresh i early
    · exact fun lost => second.fresh i late ((first.lost i).mpr (Or.inl lost))
  nodup := by
    refine List.Nodup.append first.nodup second.nodup ?_
    intro i early late
    exact second.fresh i late ((first.lost i).mpr (Or.inr early))

/-- Only which slots are empty and which are free counts. -/
theorem lost_congr (size : r'.size = r.size) (empty : r'.get? i = none ↔ r.get? i = none)
    (free : i ∈ r'.free ↔ i ∈ r.free) : Lost r' i ↔ Lost r i := by
  simp only [Lost, size, empty, free]

theorem Loses.of_same_slots (before : Loses r gone r') (slots : r''.slots = r'.slots)
    (free : r''.free = r'.free) : Loses r gone r'' := by
  have same : ∀ i, Lost r'' i ↔ Lost r' i := by
    intro i
    apply lost_congr
    · simp [Registry.size, slots]
    · simp [get?, slots]
    · simp [free]
  exact ⟨fun i => (same i).trans (before.lost i), before.fresh, before.nodup⟩

/-- The slot that is handed out next is not lost. -/
theorem not_lost_reserve (r : Registry) : ¬Lost r r.reserve.1 := by
  rintro ⟨inRange, _, taken⟩
  unfold reserve at inRange taken
  split at taken
  · next id rest free => simp [free] at taken
  · next free => simp [free, Registry.size] at inRange

theorem Coherent.inRange_reserve (coherent : Coherent r) (i : TypeId) :
    i.index < r.reserve.2.size ↔ i.index < r.size ∨ i = r.reserve.1 := by
  unfold Registry.reserve
  split
  · next id rest free =>
    have inRange : id.index < r.size := (coherent.free_empty (by simp [free])).1
    constructor
    · exact Or.inl
    · rintro (inside | rfl)
      · exact inside
      · exact inRange
  · next free =>
    have last : i = ⟨r.slots.length⟩ ↔ i.index = r.slots.length :=
      ⟨congrArg TypeId.index, TypeId.eq_of_index⟩
    simp only [Registry.size, List.length_append, List.length_singleton, last]
    omega

theorem Coherent.mem_free_reserve (coherent : Coherent r) (i : TypeId) :
    i ∈ r.reserve.2.free ↔ i ∈ r.free ∧ i ≠ r.reserve.1 := by
  have nodup := coherent.free_nodup
  unfold Registry.reserve
  split
  · next id rest free =>
    rw [free] at nodup ⊢
    have unlike : ∀ j ∈ rest, j ≠ id := fun j member same =>
      (List.nodup_cons.mp nodup).1 (same ▸ member)
    simp only [List.mem_cons]
    constructor
    · exact fun member => ⟨Or.inr member, unlike i member⟩
    · exact fun member => member.1.resolve_left member.2
  · next free => simp [free]

/-- A slot that is taken and not filled is lost. -/
theorem Coherent.loses_reserve (coherent : Coherent r) : Loses r [r.reserve.1] r.reserve.2 := by
  refine ⟨?_, ?_, List.nodup_singleton _⟩
  · intro i
    have empty := (reserve_frame r).1 i
    have own : r.get? r.reserve.1 = none :=
      ((reserve_frame r).1 _).symm.trans coherent.reserved.empty
    rw [List.mem_singleton]
    simp only [Lost, coherent.inRange_reserve, coherent.mem_free_reserve, empty]
    by_cases same : i = r.reserve.1
    · subst same
      simp [own]
    · simp [same]
  · intro i member
    rw [List.mem_singleton] at member
    exact member ▸ not_lost_reserve r

/-- A slot that is filled is not. -/
theorem Coherent.loses_place (coherent : Coherent r) (own : t.id = r.reserve.1) (waiting : Bool) :
    Loses r [] (r.reserve.2.place t waiting) := by
  have slot : Reserved r.reserve.2 t.id := own ▸ coherent.reserved
  apply loses_nothing
  intro i
  have length : (r.reserve.2.place t waiting).size = r.reserve.2.size := fill_length _ t
  have free : (r.reserve.2.place t waiting).free = r.reserve.2.free := rfl
  have taken := coherent.loses_reserve.lost i
  rw [List.mem_singleton, ← own] at taken
  by_cases same : i = t.id
  · have filled : (r.reserve.2.place t waiting).get? i = some t :=
      (get?_place slot waiting i).trans (if_pos same)
    have unlost : ¬Lost r i := by
      rw [same, own]
      exact not_lost_reserve r
    exact ⟨fun lost => absurd lost.2.1 (by simp [filled]), fun lost => absurd lost unlost⟩
  · have kept : (r.reserve.2.place t waiting).get? i = r.reserve.2.get? i :=
      (get?_place slot waiting i).trans (if_neg same)
    rw [lost_congr length (by rw [kept]) (by rw [free]), taken]
    exact or_iff_left same

/-- How a request for a new type under the name `n` fails: nothing changes, or the name is taken and
so is a slot. -/
inductive Refusal (r : Registry) (n : String) : NativeError → Registry → Prop where
  | unchanged {e : NativeError} (reason : ∀ m, e ≠ .duplicateType m) : Refusal r n e r
  | nameTaken {other : TypeId} (taken : r.named? n = some other) :
      Refusal r n (.duplicateType n) r.reserve.2

theorem refusal_of_install (own : t.name = n) (failed : r.reserve.2.install t = .error e) :
    Refusal r n e r.reserve.2 := by
  unfold install at failed
  split at failed
  · next other taken =>
    cases failed
    rw [named?, (reserve_frame r).2.1, own] at taken
    exact own ▸ .nameTaken (own ▸ taken)
  · cases failed

theorem refusal_of_require (failed : r.require i = .error e) : Refusal r n e r := by
  unfold require at failed
  split at failed
  · cases failed
  · cases failed
    apply Refusal.unchanged
    intro m same
    cases same

theorem arrayOf_refusal (failed : arrayOf c r = .error e r') :
    Refusal r (r.typeName c ++ arraySuffix) e r' := by
  unfold arrayOf at failed
  split at failed
  · cases failed
  · split at failed
    · next missing =>
      cases failed
      exact refusal_of_require missing
    · next ct required =>
      have name := typeName_eq (require_ok required)
      split at failed
      · cases failed
        apply Refusal.unchanged
        intro m same
        cases same
      · dsimp only at failed
        split at failed
        · cases failed
        · split at failed
          · next taken =>
            cases failed
            exact refusal_of_install (by rw [name]; rfl) taken
          · cases failed

theorem generateSubclass_refusal (failed : (generateSubclass base r).1 = .error e r') :
    Refusal r (r.typeName base ++ "$Subclass") e r' := by
  unfold generateSubclass at failed
  split at failed
  · next missing =>
    cases failed
    exact refusal_of_require missing
  · next bt required =>
    have name := typeName_eq (require_ok required)
    split at failed
    · cases failed
      apply Refusal.unchanged
      intro m same
      cases same
    · split at failed
      · cases failed
      · dsimp only at failed
        split at failed
        · next taken =>
          cases failed
          exact refusal_of_install (by rw [name]) taken
        · cases failed

theorem generateImplementation_refusal
    (failed : (generateImplementation interface r).1 = .error e r') :
    Refusal r (r.typeName interface ++ "$Implementation") e r' := by
  unfold generateImplementation at failed
  split at failed
  · next missing =>
    cases failed
    exact refusal_of_require missing
  · next it required =>
    have name := typeName_eq (require_ok required)
    split at failed
    · cases failed
      apply Refusal.unchanged
      intro m same
      cases same
    · split at failed
      · cases failed
      · dsimp only at failed
        split at failed
        · next taken =>
          cases failed
          exact refusal_of_install (by rw [name]) taken
        · cases failed

/-- The slot that a request has lost when it was answered: one, if the name was taken. -/
def refusedSlot (r : Registry) : EStateM.Result NativeError Registry TypeId → List TypeId
  | .error (.duplicateType _) _ => [r.reserve.1]
  | _ => []

theorem Refusal.loses (refusal : Refusal r n e r') (coherent : Coherent r) :
    Loses r (refusedSlot r (.error e r')) r' := by
  cases refusal with
  | unchanged reason =>
    have none : refusedSlot r (.error e r) = [] := by
      unfold refusedSlot
      split
      · next m _ same =>
        cases same
        exact absurd rfl (reason m)
      · rfl
    rw [none]
    exact .refl r
  | nameTaken taken => exact coherent.loses_reserve

theorem Coherent.loses_arrayOf (coherent : Coherent r) (c : TypeId) :
    Loses r (refusedSlot r (arrayOf c r)) (stateAfter (arrayOf c r)) := by
  cases result : arrayOf c r with
  | error e r' => exact (arrayOf_refusal result).loses coherent
  | ok a r' =>
    have outcome := arrayOf_outcome r c
    rw [result] at outcome
    cases outcome with
    | existing entry => exact .refl r
    | waiting absent found notVoid waits => exact coherent.loses_place rfl true
    | @published ct absent found notVoid settled free =>
      exact (coherent.loses_place (t := nextArray r c ct) rfl false).of_same_slots rfl rfl

theorem Coherent.loses_generateSubclass (coherent : Coherent r) (base : TypeId) :
    Loses r (refusedSlot r (r.generateSubclass base).1)
      (stateAfter (r.generateSubclass base).1) := by
  cases result : (r.generateSubclass base).1 with
  | error e r' => exact (generateSubclass_refusal result).loses coherent
  | ok g r' =>
    have outcome := generateSubclass_outcome r base
    rw [result] at outcome
    cases outcome with
    | existing entry => exact .refl r
    | @made bt found isClass isOpen free =>
      exact (coherent.loses_place (t := subclassType r base bt) rfl false).of_same_slots rfl rfl

theorem Coherent.loses_generateImplementation (coherent : Coherent r) (interface : TypeId) :
    Loses r (refusedSlot r (r.generateImplementation interface).1)
      (stateAfter (r.generateImplementation interface).1) := by
  cases result : (r.generateImplementation interface).1 with
  | error e r' => exact (generateImplementation_refusal result).loses coherent
  | ok g r' =>
    have outcome := generateImplementation_outcome r interface
    rw [result] at outcome
    cases outcome with
    | existing entry => exact .refl r
    | @made it found isInterface free =>
      exact (coherent.loses_place (t := implementationType r interface it) rfl false).of_same_slots
        rfl rfl

/-- The slots that are lost on the way to a name with brackets. -/
def lookupLosses (base : String) : (dimensions : Nat) → Registry → List TypeId
  | 0, _ => []
  | dimensions + 1, r =>
    match r.named? (arrayName base (dimensions + 1)) with
    | some _ => []
    | none =>
      match lookupArray base dimensions r with
      | (none, _) => lookupLosses base dimensions r
      | (some component, r') =>
        lookupLosses base dimensions r ++ refusedSlot r' (arrayOf component r')

theorem Coherent.loses_lookupArray (coherent : Coherent r) (base : String) (dimensions : Nat) :
    Loses r (lookupLosses base dimensions r) (lookupArray base dimensions r).2 := by
  induction dimensions with
  | zero => exact .refl r
  | succ d ih =>
    have inner : Coherent (lookupArray base d r).2 :=
      lookupArray_keeps (fun r' c before => (arrayOf_outcome r' c).coherent before) base d coherent
    unfold lookupArray lookupLosses
    cases r.named? (arrayName base (d + 1)) with
    | some _ => exact .refl r
    | none =>
      dsimp only
      rcases lookedUp : lookupArray base d r with ⟨found, r₁⟩
      rw [lookedUp] at ih inner
      cases found with
      | none => exact ih
      | some component =>
        have asked := ih.trans (inner.loses_arrayOf component)
        dsimp only at asked ⊢
        cases result : arrayOf component r₁ with
        | ok a r₂ =>
          rw [result] at asked
          exact asked
        | error e r₂ =>
          rw [result] at asked
          exact asked

/-- A name that is found costs no slot. -/
theorem lookupLosses_of_found (base : String) (dimensions : Nat)
    (found : (lookupArray base dimensions r).1 = some i) : lookupLosses base dimensions r = [] := by
  induction dimensions generalizing i with
  | zero => rfl
  | succ d ih =>
    unfold lookupArray at found
    unfold lookupLosses
    cases named : r.named? (arrayName base (d + 1)) with
    | some _ => rfl
    | none =>
      rw [named] at found
      dsimp only at found ⊢
      rcases lookedUp : lookupArray base d r with ⟨inner, r₁⟩
      rw [lookedUp] at found ih
      cases inner with
      | none => cases found
      | some component =>
        dsimp only at found ⊢
        rw [ih rfl]
        cases result : arrayOf component r₁ with
        | ok a r₂ => rfl
        | error e r₂ =>
          rw [result] at found
          cases found

/-- A name is not found because the name before its brackets is not, or because an array on the way
is refused. -/
theorem lookupArray_none (base : String) (dimensions : Nat)
    (missing : (lookupArray base dimensions r).1 = none) :
    (lookupArray base dimensions r).2 = r ∨
      ∃ m c r₁ e, lookupArray base m r = (some c, r₁) ∧
        arrayOf c r₁ = .error e (lookupArray base dimensions r).2 := by
  induction dimensions with
  | zero => exact Or.inl rfl
  | succ d ih =>
    rw [lookupArray] at missing ⊢
    cases named : r.named? (arrayName base (d + 1)) with
    | some _ =>
      rw [named] at missing
      cases missing
    | none =>
      rw [named] at missing
      dsimp only at missing ⊢
      rcases lookedUp : lookupArray base d r with ⟨inner, r₁⟩
      rw [lookedUp] at missing ih
      cases inner with
      | none => exact ih rfl
      | some component =>
        dsimp only at missing ⊢
        cases result : arrayOf component r₁ with
        | ok a r₂ =>
          rw [result] at missing
          cases missing
        | error e r₂ => exact Or.inr ⟨d, component, r₁, e, lookedUp, result⟩

/-- What a refused request leaves of a registry. -/
structure RefusalEffects (r : Registry) : Prop where
  array : ∀ {c e r'}, arrayOf c r = .error e r' → Refusal r (r.typeName c ++ arraySuffix) e r'
  /-- An array object needs its type; with that there, its elements may be refused. -/
  arrayObject : ∀ {w c elements e w'}, w.registry = r →
    Marshal.newArray c elements w = .error e w' →
      (∃ a, arrayOf c r = .ok a w'.registry) ∨
        Refusal r (r.typeName c ++ arraySuffix) e w'.registry
  subclass : ∀ {base e r'}, (r.generateSubclass base).1 = .error e r' →
    Refusal r (r.typeName base ++ "$Subclass") e r'
  implementation : ∀ {interface e r'}, (r.generateImplementation interface).1 = .error e r' →
    Refusal r (r.typeName interface ++ "$Implementation") e r'
  /-- Arrays within the one that is refused have been published, and have cost no slot. -/
  lookup : ∀ {name}, (r.lookup name).1 = none →
    (r.lookup name).2 = r ∨
      ∃ c r₁ e, GainsArrays r r₁ ∧ Loses r [] r₁ ∧
        Refusal r₁ (r₁.typeName c ++ arraySuffix) e (r.lookup name).2

theorem newArray_refusal {w w' : World} {elements : List Value}
    (failed : Marshal.newArray c elements w = .error e w') :
    (∃ a, arrayOf c w.registry = .ok a w'.registry) ∨
      Refusal w.registry (w.registry.typeName c ++ arraySuffix) e w'.registry := by
  simp only [Marshal.newArray, bind, EStateM.bind, Task.onRegistry] at failed
  cases result : arrayOf c w.registry with
  | error e r =>
    rw [result] at failed
    cases failed
    exact Or.inr (arrayOf_refusal result)
  | ok a r =>
    have registry := newArray_registry w c elements
    simp only [Marshal.newArray, bind, EStateM.bind, Task.onRegistry, failed] at registry
    rw [result] at registry
    exact Or.inl ⟨a, congrArg _ registry.symm⟩

theorem Settled.refusalEffects (settled : Settled r) : RefusalEffects r where
  array failed := arrayOf_refusal failed
  arrayObject same failed := by
    subst same
    exact newArray_refusal failed
  subclass failed := generateSubclass_refusal failed
  implementation failed := generateImplementation_refusal failed
  lookup := by
    intro name missing
    have missing : (lookupArray (splitArrayName name).1 (splitArrayName name).2 r).1 = none :=
      missing
    rcases lookupArray_none _ _ missing with same | ⟨m, c, r₁, e, inner, refused⟩
    · exact Or.inl same
    · have gains : GainsArrays r (lookupArray (splitArrayName name).1 m r).2 :=
        lookupArray_keeps (fun _ c before => before.arrayOf c) _ m (.refl settled)
      have loses := settled.coherent.loses_lookupArray (splitArrayName name).1 m
      rw [lookupLosses_of_found (i := c) _ _ (by rw [inner])] at loses
      rw [inner] at gains loses
      exact Or.inr ⟨c, r₁, e, gains, loses, arrayOf_refusal refused⟩

/-- The slots that are lost while references are resolved. -/
def Resolver.losses : Resolver → Registry → List TypeId
  | .done _, _ => []
  | .lookup name next, r =>
    lookupLosses (splitArrayName name).1 (splitArrayName name).2 r ++
      (next (Registry.lookup name r).1).losses (Registry.lookup name r).2
  | .arrayOf component next, r =>
    refusedSlot r (Registry.arrayOf component r) ++
      match Registry.arrayOf component r with
      | .ok array r' => (next (.ok array)).losses r'
      | .error e r' => (next (.error e)).losses r'

theorem Resolver.loses (resolver : Resolver) (coherent : Coherent r) :
    Loses r (resolver.losses r) (resolver.run r).2 := by
  have arrays : ∀ r' c, Coherent r' → Coherent (stateAfter (Registry.arrayOf c r')) :=
    fun r' c before => (arrayOf_outcome r' c).coherent before
  induction resolver generalizing r with
  | done draft => exact .refl r
  | lookup name next ih =>
    have looked : Coherent (Registry.lookup name r).2 := lookup_keeps arrays name coherent
    exact (coherent.loses_lookupArray _ _).trans (ih _ looked)
  | arrayOf c next ih =>
    have asked := coherent.loses_arrayOf c
    have coherent' := arrays r c coherent
    unfold Resolver.losses Resolver.run
    cases result : Registry.arrayOf c r with
    | ok a r' =>
      rw [result] at asked coherent'
      exact asked.trans (ih (.ok a) coherent')
    | error e r' =>
      rw [result] at asked coherent'
      exact asked.trans (ih (.error e) coherent')

/-- A type put in the place of another leaves every slot empty or filled as it was. -/
theorem empty_fill (filled : r.get? t.id ≠ none) (i : TypeId) :
    (r.fill t).get? i = none ↔ r.get? i = none := by
  obtain ⟨u, there⟩ := Option.ne_none_iff_exists'.mp filled
  rw [get?_fill (inRange_of_get? there)]
  by_cases same : i = t.id
  · simp [same, there]
  · simp [same]

/-- So does naming the arrays of a type that has been published. -/
theorem empty_publishArrays (fuel : Nat) (c : TypeId)
    (waiting : ∀ p ∈ r.pending, r.get? p ≠ none) (i : TypeId) :
    (publishArrays fuel c r).1.get? i = none ↔ r.get? i = none := by
  induction fuel generalizing c r with
  | zero => exact Iff.rfl
  | succ fuel ih =>
    unfold publishArrays
    split
    · exact Iff.rfl
    · next a entry =>
      split
      · next pending =>
        have filled : r.get? a ≠ none := waiting a (by simpa [isPending] using pending)
        dsimp only
        split
        · next installed =>
          obtain ⟨_, rfl⟩ := install_ok installed
          have renamed := empty_fill (t := arrayType a c (r.typeName c ++ arraySuffix)) filled
          refine (ih a ?_).trans (renamed i)
          intro p member
          exact (renamed p).not.mpr (waiting p (List.mem_of_mem_filter member))
        · exact ih a fun p member => waiting p (List.mem_of_mem_filter member)
      · exact Iff.rfl

theorem Coherent.waiting_filled (coherent : Coherent r) (member : i ∈ r.pending) :
    r.get? i ≠ none := by
  obtain ⟨t, there, _⟩ := coherent.pending member
  simp [there]

/-- The second phase of a definition gives slots back or keeps them for its types. -/
theorem Defining.loses_completion {origin : Registry} (defining : Defining origin id r)
    (draft : TypeDraft) : Loses r [] (stateAfter (completeDefinition id draft r).1) := by
  have headed := defining.withHeader draft
  have header : ∀ i, (r.withHeader id draft).get? i = none ↔ r.get? i = none :=
    empty_fill (defining.coherent.waiting_filled defining.waits)
  obtain ⟨size, _⟩ := slots_completeDefinition id draft r
  have outcome := completion_outcome r id draft
  generalize (completeDefinition id draft r).1 = result at outcome size
  apply loses_nothing
  intro i
  cases outcome with
  | released e =>
    have get := defining.get?_released draft i
    have free := defining.free_released draft
    by_cases waits : i ∈ r.pending
    · -- It was filled before, and it is free now.
      constructor
      · exact fun lost => absurd (List.mem_append_left _ waits) (free ▸ lost.2.2)
      · exact fun lost => absurd lost.2.1 (defining.coherent.waiting_filled waits)
    · apply lost_congr size
      · rw [stateAfter, get, if_neg waits]
      · rw [stateAfter, free, List.mem_append, or_iff_right waits]
  | @published t checked unused =>
    have built := buildType_ok headed.coherent checked
    obtain ⟨filled, _⟩ := headed.fillBuilt built
    have own : (r.withHeader id draft).get? t.id ≠ none := by
      rw [built.own_id]
      exact headed.coherent.waiting_filled headed.waits
    apply lost_congr size
    · refine (empty_publishArrays _ _ ?_ i).trans ((empty_fill own i).trans (header i))
      intro p member
      exact filled.coherent.waiting_filled (List.mem_of_mem_filter member)
    · rw [stateAfter, settlePending, (slots_publishArrays _ _ _).2]
      rfl

theorem Settled.loses_defineWith (settled : Settled r) (resolver : TypeId → Resolver) :
    Loses r ((resolver r.beginDefinition.1).losses r.beginDefinition.2)
      (stateAfter (r.defineWith resolver).1) := by
  have begun : Loses r [] r.beginDefinition.2 :=
    settled.coherent.loses_place (t := .blank r.reserve.1) rfl true
  have defining := settled.beginDefinition
  have resolved := (resolver r.beginDefinition.1).loses defining.coherent
  have completed := (defining.resolve (resolver r.beginDefinition.1)).loses_completion
    (r.resolved resolver).1
  have whole := (begun.trans resolved).trans completed
  rwa [List.append_nil] at whole

/-- The slots that an operation loses. -/
def Operation.losses (r : Registry) : Operation → List TypeId
  | define _ => []
  | defineWith resolver => (resolver r.beginDefinition.1).losses r.beginDefinition.2
  | lookup name => lookupLosses (splitArrayName name).1 (splitArrayName name).2 r
  | arrayOf component => refusedSlot r (r.arrayOf component)
  | newArray _ component _ => refusedSlot r (r.arrayOf component)
  | generateSubclass base => refusedSlot r (r.generateSubclass base).1
  | generateImplementation interface => refusedSlot r (r.generateImplementation interface).1

/-- The slots that operations lose one after the other. -/
def losses (r : Registry) : List Operation → List TypeId
  | [] => []
  | operation :: rest => operation.losses r ++ losses (operation.apply r) rest

theorem Operation.loses (operation : Operation) (settled : Settled r) :
    Loses r (operation.losses r) (operation.apply r) := by
  cases operation with
  | define draft =>
    simp only [Operation.apply, define_eq]
    cases r.named? draft.name with
    | some _ => exact .refl r
    | none => exact settled.loses_defineWith fun _ => .done draft
  | defineWith resolver => exact settled.loses_defineWith resolver
  | lookup name => exact settled.coherent.loses_lookupArray _ _
  | arrayOf component => exact settled.coherent.loses_arrayOf component
  | newArray world component elements =>
    simp only [Operation.apply, newArray_registry]
    exact settled.coherent.loses_arrayOf component
  | generateSubclass base => exact settled.coherent.loses_generateSubclass base
  | generateImplementation interface =>
    exact settled.coherent.loses_generateImplementation interface

theorem Settled.loses_foldl (settled : Settled r) (operations : List Operation) :
    Loses r (losses r operations) (operations.foldl Operation.apply r) := by
  induction operations generalizing r with
  | nil => exact .refl r
  | cons operation rest ih =>
    exact (operation.loses settled).trans (ih (settled.apply operation).1)

theorem not_lost_initial (i : TypeId) : ¬Lost initial i := by
  rintro ⟨inRange, empty, _⟩
  rw [initial_get?, List.getElem?_eq_none_iff] at empty
  simp only [Registry.size, initial, List.length_map] at inRange
  omega

/-- A refused request changes nothing but for the slot that it keeps when the name is taken. So the
slots below the size that are neither filled nor free are those of such refusals, one for each. -/
theorem slots_lost_to_taken_names (operations : List Operation) :
    RefusalEffects (afterAll operations) ∧ (losses initial operations).Nodup ∧
      ∀ i, i ∈ losses initial operations ↔
        i.index < (afterAll operations).size ∧
          ¬(Live (afterAll operations) i ∨ i ∈ (afterAll operations).free) := by
  have settled := settled_afterAll operations
  have run := settled_initial.loses_foldl operations
  refine ⟨settled.refusalEffects, run.nodup, ?_⟩
  intro i
  have lost : Lost (afterAll operations) i ↔ i ∈ losses initial operations :=
    (run.lost i).trans (or_iff_right (not_lost_initial i))
  rw [← lost, Lost, not_or, Live, not_exists, ← Option.eq_none_iff_forall_ne_some]

/-- An array whose name another class has: the table grows, and its last slot is empty and not
free. -/
theorem slot_lost_to_bracketed_class :
    let before := afterAll [.define (bareDraft "t.X[]"), .define (bareDraft "t.X")]
    let after := stateAfter (arrayOf ⟨21⟩ before)
    arrayOf ⟨21⟩ before = .error (.duplicateType "t.X[]") after ∧
      before.size = 22 ∧ after.size = 23 ∧ after.get? ⟨22⟩ = none ∧ after.free = [] := by
  refine ⟨rfl, ?_⟩
  decide +kernel

end Interop.Registry
