import Interop.Proofs.Registry.Consistency

/-!
Registrations. Classes and interfaces come into the registry one at a time: by a definition that
succeeds, or by generating a subclass or an implementation that was not there before. All else that
operations add are arrays. The ids of a history in the order of their registration name every class
and interface once.
-/
namespace Interop

/-- A class or an interface. -/
def TypeInfo.isListed (t : TypeInfo) : Bool := t.isClass || t.isInterface

namespace Registry

variable {r r' r'' : Registry} {i : TypeId} {t : TypeInfo} {new later : List TypeId}

theorem component?_of_listed (listed : t.isListed = true) : t.component? = none := by
  cases kind : t.kind <;>
    simp_all [TypeInfo.isListed, TypeInfo.isClass, TypeInfo.isInterface, TypeInfo.component?]

theorem Built.isListed {slot : TypeId} (built : Built r slot t) : t.isListed = true := by
  rcases built.kind with kind | kind <;>
    simp [TypeInfo.isListed, TypeInfo.isClass, TypeInfo.isInterface, kind]

/-- Between two registries the ids of a list have been registered, and no other class or
interface. -/
structure Registers (r : Registry) (new : List TypeId) (r' : Registry) : Prop where
  grows : Extends r r'
  known : ∀ {i t}, r'.get? i = some t → t.component? = none →
    r.get? i = some t ∨ i ∈ new ∧ t.isListed = true ∧ (t.generated = true → t.methods = [])
  fresh : ∀ i ∈ new, r.get? i = none ∧ ∃ t, r'.get? i = some t ∧ t.isListed = true
  nodup : new.Nodup

namespace Registers

theorem nothing (grows : Extends r r')
    (known : ∀ {i t}, r'.get? i = some t → t.component? = none → r.get? i = some t) :
    Registers r [] r' where
  grows := grows
  known found noArray := Or.inl (known found noArray)
  fresh _ member := absurd member List.not_mem_nil
  nodup := List.nodup_nil

theorem refl (r : Registry) : Registers r [] r := nothing (.refl r) fun found _ => found

theorem trans (first : Registers r new r') (second : Registers r' later r'') :
    Registers r (new ++ later) r'' where
  grows := first.grows.trans second.grows
  known := by
    intro i t found noArray
    rcases second.known found noArray with before | ⟨member, rest⟩
    · refine (first.known before noArray).imp_right ?_
      rintro ⟨member, rest⟩
      exact ⟨List.mem_append_left _ member, rest⟩
    · exact Or.inr ⟨List.mem_append_right _ member, rest⟩
  fresh := by
    intro i member
    rcases List.mem_append.mp member with member | member
    · obtain ⟨empty, t, found, listed⟩ := first.fresh i member
      exact ⟨empty, t, second.grows found, listed⟩
    · obtain ⟨empty, there⟩ := second.fresh i member
      refine ⟨Option.eq_none_iff_forall_ne_some.mpr ?_, there⟩
      intro t found
      rw [first.grows found] at empty
      cases empty
  nodup := by
    refine List.nodup_append'.mpr ⟨first.nodup, second.nodup, ?_⟩
    intro i before after
    obtain ⟨_, t, found, _⟩ := first.fresh i before
    rw [(second.fresh i after).1] at found
    cases found

/-- One class or interface in a slot that was empty. -/
theorem one (grows : Extends r r') (empty : r.get? i = none) (there : r'.get? i = some t)
    (listed : t.isListed = true) (bare : t.generated = true → t.methods = [])
    (known : ∀ {j u}, r'.get? j = some u → u.component? = none → j ≠ i → r.get? j = some u) :
    Registers r [i] r' where
  grows := grows
  known := by
    intro j u found noArray
    by_cases same : j = i
    · rw [same, there] at found
      cases found
      exact Or.inr ⟨by simp [same], listed, bare⟩
    · exact Or.inl (known found noArray same)
  fresh := by
    intro j member
    cases List.mem_singleton.mp member
    exact ⟨empty, t, there, listed⟩
  nodup := List.nodup_singleton i

end Registers

theorem registers_arrayOf (settled : Settled r) (c : TypeId) :
    Registers r [] (stateAfter (Registry.arrayOf c r)) :=
  .nothing (settled.extends_arrayOf c) fun found noArray =>
    (arrayOf_outcome r c).known settled.coherent found noArray

theorem registers_lookup (settled : Settled r) (name : String) :
    Registers r [] (r.lookup name).2 := by
  have asked : ∀ r' c, Settled r' ∧ Registers r [] r' →
      Settled (stateAfter (Registry.arrayOf c r')) ∧
        Registers r [] (stateAfter (Registry.arrayOf c r')) :=
    fun r' c between => ⟨between.1.arrayOf c, between.2.trans (registers_arrayOf between.1 c)⟩
  exact (lookup_keeps asked name ⟨settled, .refl r⟩).2

/-- The id that a successful request gives, unless it stood for a type before. -/
def registration (r : Registry) : EStateM.Result NativeError Registry TypeId → List TypeId
  | .ok id _ => if (r.get? id).isSome then [] else [id]
  | .error _ _ => []

theorem registration_ok (empty : r.get? i = none) : r.registration (.ok i r') = [i] := by
  simp [registration, empty]

theorem registration_existing (found : r.get? i = some t) : r.registration (.ok i r') = [] := by
  simp [registration, found]

theorem registration_mem : ∀ j ∈ r.registration (.ok i r'), j = i := by
  cases found : r.get? i with
  | none => simp [registration_ok found]
  | some t => simp [registration_existing found]

/-- The type that is published stays in its slot while its arrays get their names. -/
theorem Defining.get?_publish {origin : Registry} {id : TypeId} (defining : Defining origin id r)
    (found : r.get? id = some t) (rooted : t.isClass → ∃ s, t.superclass = some s) :
    (settlePending { r with names := (t.name, id) :: r.names } id).1.get? id = some t := by
  obtain ⟨outer, others, chain, nodup, enough, _⟩ := defining.arrays_left
  obtain ⟨rank, ranked, _⟩ := defining.ranked
  obtain ⟨_, _, _, kept, _⟩ := publishArrays_settles (defining.coherent_named found rooted) ranked
    chain nodup others enough
  refine (kept id ?_).trans found
  intro member
  have waits : id ∈ r.pending.filter (fun p => p != id) := by
    rw [others]
    exact List.mem_reverse.mpr member
  simp at waits

theorem registers_defineWith (settled : Settled r) (resolver : TypeId → Resolver) :
    Registers r (r.registration (r.defineWith resolver).1)
      (stateAfter (r.defineWith resolver).1) := by
  have completed := settled.defineWith resolver
  have defining := (settled.beginDefinition.resolve (resolver r.beginDefinition.1)).withHeader
    (r.resolved resolver).1
  have outcome := completion_outcome (r.resolved resolver).2 r.beginDefinition.1
    (r.resolved resolver).1
  change CompletionOutcome _ _ _ (r.defineWith resolver).1 at outcome
  generalize (r.defineWith resolver).1 = result at completed outcome
  cases outcome with
  | released e =>
    obtain ⟨_, grows, known⟩ := defining.release
    exact .nothing grows known
  | @published t checked free =>
    have built := buildType_ok defining.coherent checked
    obtain ⟨filled, self⟩ := defining.fillBuilt built
    have there := filled.get?_publish self built.rooted
    have empty := defining.fresh defining.waits
    rw [registration_ok empty]
    refine .one completed.grows empty ?_ built.isListed ?_ ?_
    · rw [built.own_id]
      exact there
    · intro generated
      rw [built.plain] at generated
      cases generated
    · intro j u found noArray different
      exact (completed.known found noArray).resolve_right fun own => different own.1

theorem registers_reserve (r : Registry) : Registers r [] r.reserve.2 :=
  .nothing (extends_reserve r) fun found _ => ((reserve_frame r).1 _).symm.trans found

/-- A class without methods that is put into the slot reserved next. -/
theorem registers_place (settled : Settled r) (own : t.id = r.reserve.1)
    (listed : t.isListed = true) (bare : t.methods = [])
    (same : ∀ j, r'.get? j = (r.reserve.2.place t false).get? j) :
    Registers r (r.registration (.ok r.reserve.1 r')) r' := by
  have slot : Reserved r.reserve.2 t.id := own ▸ settled.coherent.reserved
  have empty := settled.coherent.reserved.empty
  rw [(reserve_frame r).1] at empty
  have get : ∀ j, r'.get? j = if j = r.reserve.1 then some t else r.get? j := by
    intro j
    rw [same, get?_place slot, own, (reserve_frame r).1]
  rw [registration_ok empty]
  refine .one ?_ empty ((get _).trans (if_pos rfl)) listed (fun _ => bare) ?_
  · intro j u found
    rw [get, if_neg]
    · exact found
    · rintro rfl
      rw [empty] at found
      cases found
  · intro j u found _ different
    rwa [get, if_neg different] at found

theorem registers_generateSubclass (settled : Settled r) (base : TypeId) :
    Registers r (r.registration (r.generateSubclass base).1)
      (stateAfter (r.generateSubclass base).1) := by
  have outcome := generateSubclass_outcome r base
  generalize (r.generateSubclass base).1 = result at outcome
  cases outcome with
  | existing entry =>
    obtain ⟨t, found, _⟩ := settled.coherent.subclasses entry
    rw [registration_existing found]
    exact .refl r
  | refused e => exact .refl r
  | taken e => exact registers_reserve r
  | made => exact registers_place (t := subclassType r base _) settled rfl rfl rfl fun _ => rfl

theorem registers_generateImplementation (settled : Settled r) (interface : TypeId) :
    Registers r (r.registration (r.generateImplementation interface).1)
      (stateAfter (r.generateImplementation interface).1) := by
  have outcome := generateImplementation_outcome r interface
  generalize (r.generateImplementation interface).1 = result at outcome
  cases outcome with
  | existing entry =>
    obtain ⟨t, found, _⟩ := settled.coherent.implementations entry
    rw [registration_existing found]
    exact .refl r
  | refused e => exact .refl r
  | taken e => exact registers_reserve r
  | made =>
    exact registers_place (t := implementationType r interface _) settled rfl rfl rfl fun _ => rfl

/-- The class or interface that an operation registers, if it does. -/
def Operation.registers (r : Registry) : Operation → List TypeId
  | define draft => r.registration (r.define draft).1
  | defineWith resolver => r.registration (r.defineWith resolver).1
  | generateSubclass base => r.registration (r.generateSubclass base).1
  | generateImplementation interface => r.registration (r.generateImplementation interface).1
  | lookup _ | arrayOf _ | newArray _ _ _ => []

/-- What is registered gets the slot that is handed out next. -/
theorem Operation.registers_reserved (operation : Operation) (settled : Settled r) :
    ∀ i ∈ operation.registers r, i = r.reserve.1 := by
  have defined : ∀ resolver, ∀ i ∈ r.registration (r.defineWith resolver).1, i = r.reserve.1 := by
    intro resolver
    have outcome := completion_outcome (r.resolved resolver).2 r.beginDefinition.1
      (r.resolved resolver).1
    change CompletionOutcome _ _ _ (r.defineWith resolver).1 at outcome
    generalize (r.defineWith resolver).1 = result at outcome
    cases outcome with
    | released e => exact nofun
    | published checked free => exact registration_mem
  cases operation with
  | define draft =>
    simp only [Operation.registers, define_eq]
    cases r.named? draft.name with
    | some _ => exact nofun
    | none => exact defined _
  | defineWith resolver => exact defined resolver
  | generateSubclass base =>
    have outcome := generateSubclass_outcome r base
    simp only [Operation.registers]
    generalize (r.generateSubclass base).1 = result at outcome
    cases outcome with
    | existing entry =>
      obtain ⟨t, found, _⟩ := settled.coherent.subclasses entry
      simp [registration_existing found]
    | refused e => exact nofun
    | taken e => exact nofun
    | made => exact registration_mem
  | generateImplementation interface =>
    have outcome := generateImplementation_outcome r interface
    simp only [Operation.registers]
    generalize (r.generateImplementation interface).1 = result at outcome
    cases outcome with
    | existing entry =>
      obtain ⟨t, found, _⟩ := settled.coherent.implementations entry
      simp [registration_existing found]
    | refused e => exact nofun
    | taken e => exact nofun
    | made => exact registration_mem
  | lookup name => exact nofun
  | arrayOf component => exact nofun
  | newArray world component elements => exact nofun

/-- What operations register one after the other. -/
def registrations (r : Registry) : List Operation → List TypeId
  | [] => []
  | operation :: rest => operation.registers r ++ registrations (operation.apply r) rest

/-- The classes and interfaces that are there, in slot order. -/
def listing (r : Registry) : List TypeId := (r.types.filter TypeInfo.isListed).map TypeInfo.id

/-- The classes and interfaces of a history in the order of their registration, from those that are
always there on. -/
def registered (operations : List Operation) : List TypeId :=
  initial.listing ++ registrations initial operations

theorem Operation.registers_apply (operation : Operation) (settled : Settled r) :
    Registers r (operation.registers r) (operation.apply r) := by
  cases operation with
  | define draft =>
    simp only [Operation.registers, Operation.apply, define_eq]
    cases r.named? draft.name with
    | some _ => exact .refl r
    | none => exact registers_defineWith settled _
  | defineWith resolver => exact registers_defineWith settled resolver
  | lookup name => exact registers_lookup settled name
  | arrayOf component => exact registers_arrayOf settled component
  | newArray world component elements =>
    simp only [Operation.registers, Operation.apply, newArray_registry]
    exact registers_arrayOf settled component
  | generateSubclass base => exact registers_generateSubclass settled base
  | generateImplementation interface => exact registers_generateImplementation settled interface

theorem Settled.registers_foldl (settled : Settled r) (operations : List Operation) :
    Registers r (registrations r operations) (operations.foldl Operation.apply r) := by
  induction operations generalizing r with
  | nil => exact .refl r
  | cons operation rest ih =>
    exact (operation.registers_apply settled).trans (ih (settled.apply operation).1)

theorem types_eq (r : Registry) :
    r.types = (List.range r.slots.length).filterMap fun n => r.get? ⟨n⟩ := by
  have slots : r.slots = (List.range r.slots.length).map fun n => r.get? ⟨n⟩ := by
    apply List.ext_getElem
    · simp
    · intro n inRange _
      simp [get?, inRange]
  rw [types]
  nth_rewrite 1 [slots]
  rw [List.filterMap_map]
  rfl

theorem mem_types (coherent : Coherent r) : t ∈ r.types ↔ r.get? t.id = some t := by
  rw [types_eq, List.mem_filterMap]
  constructor
  · rintro ⟨n, _, found⟩
    rwa [coherent.ids found]
  · intro found
    exact ⟨t.id.index, List.mem_range.mpr (inRange_of_get? found), found⟩

theorem mem_listing (coherent : Coherent r) :
    i ∈ r.listing ↔ ∃ t, r.get? i = some t ∧ t.isListed = true := by
  simp only [listing, List.mem_map, List.mem_filter, mem_types coherent]
  constructor
  · rintro ⟨t, ⟨found, listed⟩, rfl⟩
    exact ⟨t, found, listed⟩
  · rintro ⟨t, found, listed⟩
    have own := coherent.ids found
    exact ⟨t, ⟨own ▸ found, listed⟩, own⟩

theorem mem_registered {operations : List Operation} :
    i ∈ registered operations ↔ ∃ t, (afterAll operations).get? i = some t ∧ t.isListed = true := by
  have run := settled_initial.registers_foldl operations
  rw [registered, List.mem_append, mem_listing coherent_initial]
  constructor
  · rintro (⟨t, found, listed⟩ | new)
    · exact ⟨t, run.grows found, listed⟩
    · exact (run.fresh i new).2
  · rintro ⟨t, found, listed⟩
    refine (run.known found (component?_of_listed listed)).imp ?_ And.left
    exact fun before => ⟨t, before, listed⟩

theorem nodup_registered (operations : List Operation) : (registered operations).Nodup := by
  have run := settled_initial.registers_foldl operations
  refine List.nodup_append'.mpr ⟨by decide, run.nodup, ?_⟩
  intro i first new
  obtain ⟨t, found, _⟩ := (mem_listing coherent_initial).mp first
  rw [(run.fresh i new).1] at found
  cases found

/-- A generated type has no methods of its own. -/
theorem methods_of_generated {operations : List Operation}
    (found : (afterAll operations).get? i = some t) (generated : t.generated = true) :
    t.methods = [] := by
  cases component : t.component? with
  | some c =>
    have fits := (settled_afterAll operations).coherent.fits found
    rw [fits.array_shape c (TypeInfo.component?_eq.mp component)]
    rfl
  | none =>
    have run := settled_initial.registers_foldl operations
    rcases run.known found component with first | ⟨_, _, bare⟩
    · have none : firstTypes.all (fun t => !t.generated) = true := by decide
      have plain := List.all_eq_true.mp none t (initial_get?_iff.mp first).1
      simp [generated] at plain
    · exact bare generated

end Registry

end Interop
