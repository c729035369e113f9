import Interop.Catalog
import Interop.Proofs.Registry.Registrations
import Interop.Proofs.Registry.Rollback

/-!
The order of a catalog. A catalog lists every class and interface once and in the order of the
slots. A slot that a failed definition gave back may be handed out later than the slots after it,
and if the definition had made arrays of its own type, several come back, the last one first: then
the order of the slots is not that in which types were registered. Without such a failure it is.
-/
namespace Interop.Registry

variable {r r' : Registry} {i j : TypeId} {t : TypeInfo} {operations : List Operation}

/-- One slot stands before the other. -/
def Before (i j : TypeId) : Prop := i.index < j.index

/-- The entry of a type in the catalog, if it has one. -/
def entryAt? (r : Registry) (i : TypeId) : Option ClassEntry := (r.get? i).bind r.entryOf?

theorem listing_ascending (coherent : Coherent r) : r.listing.Pairwise Before := by
  have types : r.types.Pairwise fun t u => Before t.id u.id := by
    rw [types_eq]
    refine List.pairwise_lt_range.filterMap _ ?_
    intro n m less t found u there
    have own := coherent.ids found
    have own' := coherent.ids there
    rw [Before, own, own']
    exact less
  exact List.pairwise_map.mpr (types.filter _)

theorem nodup_of_ascending {ids : List TypeId} (ascending : ids.Pairwise Before) : ids.Nodup := by
  refine ascending.imp ?_
  rintro i _ less rfl
  exact Nat.lt_irrefl _ less

/-- The listing has the registered types, each once. -/
theorem listing_perm (operations : List Operation) :
    (afterAll operations).listing.Perm (registered operations) := by
  have coherent := (settled_afterAll operations).coherent
  refine (List.perm_ext_iff_of_nodup (nodup_of_ascending (listing_ascending coherent))
    (nodup_registered operations)).mpr ?_
  intro i
  rw [mem_listing coherent, mem_registered]

theorem entryOf?_isSome : (r.entryOf? t).isSome = t.isListed := by
  cases kind : t.kind <;>
    simp [entryOf?, TypeInfo.isListed, TypeInfo.isClass, TypeInfo.isInterface, kind]

theorem entryOf?_name {entry : ClassEntry} (given : r.entryOf? t = some entry) :
    entry.name = t.name := by
  unfold entryOf? at given
  split at given <;> cases given <;> rfl

/-- The catalog has the entries of the listing. -/
theorem catalog_eq (coherent : Coherent r) :
    r.catalog.classes.map some = r.listing.map r.entryAt? := by
  have each : ∀ types : List TypeInfo, (∀ t ∈ types, r.get? t.id = some t) →
      (types.filterMap r.entryOf?).map some =
        ((types.filter TypeInfo.isListed).map TypeInfo.id).map r.entryAt? := by
    intro types there
    induction types with
    | nil => rfl
    | cons t rest ih =>
      have later := ih fun u member => there u (List.mem_cons_of_mem t member)
      have own : r.entryAt? t.id = r.entryOf? t := by
        rw [entryAt?, there t List.mem_cons_self, Option.bind_some]
      cases given : r.entryOf? t with
      | none =>
        have unlisted : t.isListed = false := by rw [← entryOf?_isSome (r := r), given]; rfl
        rw [List.filterMap_cons_none given, List.filter_cons_of_neg (by simp [unlisted]), later]
      | some entry =>
        have listed : t.isListed = true := by rw [← entryOf?_isSome (r := r), given]; rfl
        rw [List.filterMap_cons_some given, List.filter_cons_of_pos listed, List.map_cons, later,
          List.map_cons, List.map_cons, own, given]
  exact each r.types fun t member => (mem_types coherent).mp member

/-- A class or an interface is found under the name in its entry. -/
theorem entryAt?_named (settled : Settled r) (titled : Titled r) (found : r.get? i = some t)
    (listed : t.isListed = true) :
    ((r.entryAt? i).bind fun entry => r.named? entry.name) = some i := by
  rw [entryAt?, found, Option.bind_some]
  obtain ⟨entry, given⟩ := Option.isSome_iff_exists.mp (entryOf?_isSome (r := r).trans listed)
  rw [given, Option.bind_some, entryOf?_name given]
  refine (titled.named (settled.published found)).resolve_right ?_
  rintro ⟨c, _, array, _⟩
  rw [component?_of_get? found, component?_of_listed listed] at array
  cases array

/-- So the entries of some types tell which types they are. -/
theorem map_entryAt?_named (operations : List Operation) {ids : List TypeId}
    (among : ∀ i ∈ ids, i ∈ registered operations) :
    (ids.map (afterAll operations).entryAt?).map
      (fun entry => entry.bind fun entry => (afterAll operations).named? entry.name) =
      ids.map some := by
  rw [List.map_map, List.map_inj_left]
  intro i member
  obtain ⟨t, found, listed⟩ := mem_registered.mp (among i member)
  exact entryAt?_named (settled_afterAll operations) (titled_afterAll operations) found listed

/-- At most one slot is free, and it stands after all classes and interfaces. -/
structure Tidy (r : Registry) : Prop where
  single : r.free.length ≤ 1
  behind : ∀ x ∈ r.free, ∀ {i t}, r.get? i = some t → t.isListed = true → Before i x

/-- A definition that fails after it has made an array of the type that it defines. -/
def Operation.Scatters (r : Registry) : Operation → Prop
  | defineWith resolver =>
    (∃ e r', (r.defineWith resolver).1 = .error e r') ∧
      ((r.resolved resolver).2.arrays.lookup r.beginDefinition.1).isSome
  | _ => False

/-- There is such a definition among the operations. -/
def Scattered (r : Registry) : List Operation → Prop
  | [] => False
  | operation :: rest => operation.Scatters r ∨ Scattered (operation.apply r) rest

theorem tidy_of_full (full : r.free = []) : Tidy r :=
  ⟨by simp [full], by simp [full]⟩

namespace Tidy

/-- The slot that is handed out next stands after all classes and interfaces. -/
theorem reserve (tidy : Tidy r) :
    r.reserve.2.free = [] ∧
      ∀ {i t}, r.get? i = some t → t.isListed = true → Before i r.reserve.1 := by
  have single := tidy.single
  have behind := tidy.behind
  unfold Registry.reserve
  split
  · next id rest free =>
    rw [free] at single behind
    have last : rest = [] := by simpa using single
    exact ⟨last, behind id List.mem_cons_self⟩
  · next free => exact ⟨free, fun found _ => inRange_of_get? found⟩

/-- Slots are taken for other types than classes and interfaces. -/
theorem draw (tidy : Tidy r) (draws : Draws r r') (registers : Registers r [] r') : Tidy r' := by
  refine ⟨draws.free.length_le.trans tidy.single, ?_⟩
  intro x member i t found listed
  have before := (registers.known found (component?_of_listed listed)).resolve_right (by simp)
  exact tidy.behind x (draws.free.subset member) before listed

/-- A definition that fails gives its own slot back, and others only if it has made arrays of its
own type. -/
theorem defineWith (tidy : Tidy r) (settled : Settled r) {resolver : TypeId → Resolver}
    (calm : ¬(Operation.defineWith resolver).Scatters r) :
    Tidy (stateAfter (r.defineWith resolver).1) := by
  obtain ⟨begun, last⟩ := tidy.reserve
  have defining : Defining r r.beginDefinition.1 (r.resolved resolver).2 :=
    settled.beginDefinition.resolve (resolver r.beginDefinition.1)
  have full : (r.resolved resolver).2.free = [] := by
    refine (resolver r.beginDefinition.1).keeps (P := fun r' => r'.free = []) ?_ begun
    intro r' c between
    exact List.suffix_nil.mp (between ▸ (draws_arrayOf c r').free)
  have registers := registers_defineWith settled resolver
  have outcome := completion_outcome (r.resolved resolver).2 r.beginDefinition.1
    (r.resolved resolver).1
  change CompletionOutcome _ _ _ (r.defineWith resolver).1 at outcome
  simp only [Operation.Scatters, not_and] at calm
  generalize (r.defineWith resolver).1 = result at registers outcome calm
  cases outcome with
  | released e =>
    have alone : (r.resolved resolver).2.pending = [r.beginDefinition.1] := by
      obtain ⟨outer, pending, chain⟩ := defining.chain
      cases chain with
      | last absent => exact pending
      | next entry _ => exact absurd (Option.isSome_of_eq_some entry) (calm ⟨e, _, rfl⟩)
    have free := defining.free_released (r.resolved resolver).1
    rw [alone, full] at free
    refine ⟨by simp [stateAfter, free], ?_⟩
    intro x member i t found listed
    have own : x = r.beginDefinition.1 := by simpa [stateAfter, free] using member
    have before := (registers.known found (component?_of_listed listed)).resolve_right
      (by simp [registration])
    exact own ▸ last before listed
  | published checked free =>
    refine tidy_of_full ?_
    rw [stateAfter, settlePending, (slots_publishArrays _ _ _).2]
    exact full

theorem apply (tidy : Tidy r) (settled : Settled r) {operation : Operation}
    (calm : ¬operation.Scatters r) : Tidy (operation.apply r) := by
  have registers := operation.registers_apply settled
  have draws := operation.draws_peak r
  cases operation with
  | define draft =>
    simp only [Operation.apply, define_eq]
    cases r.named? draft.name with
    | some _ => exact tidy
    | none =>
      refine tidy.defineWith settled ?_
      -- The draft of a plain definition needs no slot, so no array has been made.
      rintro ⟨_, array⟩
      have empty : r.arrays.lookup r.reserve.1 = none := by
        apply settled.coherent.no_array_over_empty
        exact ((reserve_frame r).1 _).symm.trans settled.coherent.reserved.empty
      have same : (r.resolved fun _ => .done draft).2.arrays = r.arrays := (reserve_frame r).2.2.1
      rw [same] at array
      exact Option.not_isSome_iff_eq_none.mpr empty array
  | defineWith resolver => exact tidy.defineWith settled calm
  | lookup name => exact tidy.draw draws registers
  | arrayOf component => exact tidy.draw draws registers
  | newArray world component elements => exact tidy.draw draws registers
  | generateSubclass base =>
    have outcome := generateSubclass_outcome r base
    simp only [Operation.apply]
    generalize (r.generateSubclass base).1 = result at outcome
    cases outcome with
    | existing entry => exact tidy
    | refused e => exact tidy
    | taken e => exact tidy_of_full tidy.reserve.1
    | made => exact tidy_of_full tidy.reserve.1
  | generateImplementation interface =>
    have outcome := generateImplementation_outcome r interface
    simp only [Operation.apply]
    generalize (r.generateImplementation interface).1 = result at outcome
    cases outcome with
    | existing entry => exact tidy
    | refused e => exact tidy
    | taken e => exact tidy_of_full tidy.reserve.1
    | made => exact tidy_of_full tidy.reserve.1

/-- Without scattering definitions, whatever is registered stands after all that was there. -/
theorem ascending (tidy : Tidy r) (settled : Settled r) (calm : ¬Scattered r operations) :
    (registrations r operations).Pairwise Before ∧
      ∀ j ∈ registrations r operations, ∀ {i t}, r.get? i = some t → t.isListed = true →
        Before i j := by
  induction operations generalizing r with
  | nil => exact ⟨.nil, nofun⟩
  | cons operation rest ih =>
    obtain ⟨now, then_⟩ := not_or.mp calm
    obtain ⟨sorted, behind⟩ := ih (tidy.apply settled now) (settled.apply operation).1 then_
    have registers := operation.registers_apply settled
    have next := operation.registers_reserved settled
    refine ⟨List.pairwise_append.mpr ⟨?_, sorted, ?_⟩, ?_⟩
    · refine registers.nodup.imp_of_mem ?_
      intro i j first second different
      exact absurd ((next i first).trans (next j second).symm) different
    · intro i new j later
      obtain ⟨_, t, found, listed⟩ := registers.fresh i new
      exact behind j later found listed
    · intro j member i t found listed
      rcases List.mem_append.mp member with new | later
      · exact next j new ▸ tidy.reserve.2 found listed
      · exact behind j later (registers.grows found) listed

end Tidy

theorem registered_ascending (calm : ¬Scattered initial operations) :
    (registered operations).Pairwise Before := by
  obtain ⟨sorted, behind⟩ := (tidy_of_full (r := initial) rfl).ascending settled_initial calm
  refine List.pairwise_append.mpr ⟨listing_ascending coherent_initial, sorted, ?_⟩
  intro i first j later
  obtain ⟨t, found, listed⟩ := (mem_listing coherent_initial).mp first
  exact behind j later found listed

/-- What a catalog lists, and in which order. -/
structure ListsBySlot (operations : List Operation) : Prop where
  /-- The classes and interfaces that are there have been registered, each once. -/
  registered_iff : (registered operations).Nodup ∧ ∀ i, i ∈ registered operations ↔
    ∃ t, (afterAll operations).get? i = some t ∧ t.isListed = true
  /-- The catalog has one entry for each of them, in the order of the slots. -/
  listed : ∃ order : List TypeId, order.Perm (registered operations) ∧ order.Pairwise Before ∧
    (afterAll operations).catalog.classes.map some = order.map (afterAll operations).entryAt?
  names : ((afterAll operations).catalog.classes.map ClassEntry.name).Nodup
  /-- This is the order of registration exactly if slots have been handed out in order. -/
  in_order_iff :
    (afterAll operations).catalog.classes.map some =
        (registered operations).map (afterAll operations).entryAt? ↔
      (registered operations).Pairwise Before
  /-- Only a slot that was given back before is handed out behind a later one. -/
  reused : ∀ {operation : Operation} {i j}, i ∈ registered operations →
    j ∈ operation.registers (afterAll operations) → Before j i →
      (afterAll operations).free.head? = some j
  /-- And this does not happen where no definition fails that has made arrays of its own type. -/
  in_order : ¬Scattered initial operations →
    (afterAll operations).catalog.classes.map some =
      (registered operations).map (afterAll operations).entryAt?

/-- After any history, with failed definitions in it or without, the catalog lists the classes and
interfaces by their slots. -/
theorem catalog_lists_by_slot (operations : List Operation) : ListsBySlot operations := by
  have settled := settled_afterAll operations
  have entries := catalog_eq settled.coherent
  have perm := listing_perm operations
  have sorted := listing_ascending settled.coherent
  have own := map_entryAt?_named operations fun i member => perm.mem_iff.mp member
  have in_order_iff : (afterAll operations).catalog.classes.map some =
        (registered operations).map (afterAll operations).entryAt? ↔
      (registered operations).Pairwise Before := by
    rw [entries]
    constructor
    · intro same
      have ids := map_entryAt?_named operations fun i (member : i ∈ registered operations) => member
      rw [← same, own] at ids
      exact List.map_injective_iff.mpr (Option.some_injective _) ids ▸ sorted
    · intro ascending
      rw [perm.eq_of_pairwise ?_ sorted ascending]
      intro i j _ _ less greater
      exact absurd less (Nat.lt_asymm greater)
  refine ⟨⟨nodup_registered operations, fun i => mem_registered⟩,
    ⟨_, perm, sorted, entries⟩, ?_, in_order_iff, ?_, ?_⟩
  · have nodup := (nodup_of_ascending sorted).map (Option.some_injective _)
    rw [← own, ← entries, List.map_map] at nodup
    refine List.Nodup.of_map (afterAll operations).named? ?_
    rw [List.map_map]
    exact nodup
  · intro operation i j first new before
    rw [operation.registers_reserved settled j new] at before ⊢
    obtain ⟨t, found, _⟩ := mem_registered.mp first
    have inRange := inRange_of_get? found
    unfold reserve at before ⊢
    split
    · next id rest free => simp [free]
    · next free =>
      rw [free] at before
      exact absurd before (Nat.lt_asymm inRange)
  · exact fun calm => in_order_iff.mpr (registered_ascending calm)

/-- A class that has asked for an array of itself and fails, since it extends texts; then two
classes that do not fail. -/
def scatteredOperations : List Operation := [
  .defineWith fun this => .arrayOf this fun _ =>
    .done { bareDraft "t.Failed" with superclass := some .string },
  .define (bareDraft "t.First"),
  .define (bareDraft "t.Second")]

/-- The class that was registered first is listed last. -/
theorem catalog_out_of_order :
    ["t.First", "t.Second"] <:+
      (registered scatteredOperations).map (afterAll scatteredOperations).typeName ∧
    ["t.Second", "t.First"] <:+
      (afterAll scatteredOperations).catalog.classes.map ClassEntry.name := by
  decide +kernel

end Interop.Registry
