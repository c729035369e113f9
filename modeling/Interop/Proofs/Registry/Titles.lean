import Interop.Proofs.Registry.Permanence

/-!
The names of published types. A type is published under its own name, and an array under the name of
its component with brackets. There is one exception: an array of a type under definition gets its
name after its component, and if that name stands for another type by then, the array stays without
one. `Titled` says so, and is kept by every step of every operation.
-/
namespace Interop.Registry

variable {r r' origin : Registry} {i j a c id : TypeId} {t u : TypeInfo} {n : String}
  {outer : List TypeId}

/-- The type is there and does not wait for its name. -/
def Published (r : Registry) (i : TypeId) (t : TypeInfo) : Prop := r.get? i = some t ∧ i ∉ r.pending

/-- An array whose name, that of its component with brackets, stands for another type. -/
def Displaced (r : Registry) (a : TypeId) : Prop :=
  ∃ c j, r.component? a = some c ∧ r.named? (r.typeName c ++ arraySuffix) = some j ∧ j ≠ a

/-- No class or interface has a name that ends in brackets. -/
def PlainlyNamed (r : Registry) : Prop :=
  ∀ ⦃i t⦄, Published r i t → t.component? = none → ∀ s, t.name ≠ s ++ arraySuffix

structure Titled (r : Registry) : Prop where
  named : ∀ {i t}, Published r i t → r.named? t.name = some i ∨ Displaced r i
  arrays : ∀ {n a c}, r.named? n = some a → r.component? a = some c →
    n = r.typeName c ++ arraySuffix
  components : ∀ {a t c}, Published r a t → t.component? = some c → ∃ u, Published r c u
  plain : PlainlyNamed r → ∀ {i t}, Published r i t → r.named? t.name = some i

theorem typeName_eq (found : r.get? i = some t) : r.typeName i = t.name := by
  simp [typeName, found]

theorem component?_of_get? (found : r.get? i = some t) : r.component? i = t.component? := by
  simp [component?, found]

theorem Coherent.published_of_named (coherent : Coherent r) (named : r.named? n = some i) :
    ∃ t, Published r i t ∧ t.name = n := by
  obtain ⟨t, found, name⟩ := coherent.names named
  exact ⟨t, ⟨found, fun waits => coherent.unnamed waits named⟩, name⟩

/-- A component has one array type. -/
theorem Coherent.array_unique (coherent : Coherent r) (first : r.component? i = some c)
    (second : r.component? j = some c) : i = j := by
  have entry : ∀ {a}, r.component? a = some c → r.arrays.lookup c = some a := by
    intro a component
    obtain ⟨t, found, array⟩ := Option.bind_eq_some_iff.mp component
    exact coherent.arrays.mpr ⟨t, found, TypeInfo.component?_eq.mp array⟩
  exact Option.some.inj ((entry first).symm.trans (entry second))

theorem append_suffix_inj {s s' : String} (same : s ++ arraySuffix = s' ++ arraySuffix) :
    s = s' := by
  have chars := congrArg String.toList same
  rw [String.toList_append, String.toList_append] at chars
  exact String.toList_injective (List.append_cancel_right chars)

/-- Published types stay and names are kept; what is published newly has its name or is displaced,
and is no array of something else that is new. -/
theorem Titled.grow (before : Titled r) (coherent : Coherent r) (coherent' : Coherent r')
    (kept : KeepsNames r r') (types : ∀ {i t}, Published r i t → Published r' i t)
    (newTypes : ∀ {i t}, Published r' i t → Published r i t ∨
      ((r'.named? t.name = some i ∨ Displaced r' i) ∧
        ∀ c, t.component? = some c → ∃ u, Published r c u))
    (newNames : ∀ {n a}, r'.named? n = some a → r.named? n = some a ∨
      ∀ c, r'.component? a = some c → n = r'.typeName c ++ arraySuffix) : Titled r' := by
  have typeName : ∀ {c u}, Published r c u → r'.typeName c = r.typeName c := by
    intro c u published
    rw [typeName_eq (types published).1, typeName_eq published.1]
  have component : ∀ {a t}, Published r a t → r'.component? a = r.component? a := by
    intro a t published
    rw [component?_of_get? (types published).1, component?_of_get? published.1]
  have components : ∀ {a t c}, Published r' a t → t.component? = some c → ∃ u, Published r c u := by
    intro a t c published array
    rcases newTypes published with old | ⟨_, inner⟩
    · exact before.components old array
    · exact inner c array
  have displaced : ∀ {a t}, Published r a t → Displaced r a → Displaced r' a := by
    rintro a t published ⟨c, j, array, named, different⟩
    have inner : t.component? = some c := (component?_of_get? published.1).symm.trans array
    obtain ⟨u, there⟩ := before.components published inner
    exact ⟨c, j, (component published).trans array, by rw [typeName there]; exact kept named,
      different⟩
  have named : ∀ {i t}, Published r' i t → r'.named? t.name = some i ∨ Displaced r' i := by
    intro i t published
    rcases newTypes published with old | ⟨title, _⟩
    · exact (before.named old).imp (fun named => kept named) (displaced old)
    · exact title
  have arrays : ∀ {n a c}, r'.named? n = some a → r'.component? a = some c →
      n = r'.typeName c ++ arraySuffix := by
    intro n a c title array
    rcases newNames title with old | new
    · obtain ⟨t, published, _⟩ := coherent.published_of_named old
      rw [component published] at array
      obtain ⟨u, there⟩ :=
        before.components published ((component?_of_get? published.1).symm.trans array)
      rw [typeName there]
      exact before.arrays old array
    · exact new c array
  refine ⟨named, arrays, ?_, ?_⟩
  · intro a t c published array
    obtain ⟨u, there⟩ := components published array
    exact ⟨u, types there⟩
  · intro plain i t published
    have plainBefore : PlainlyNamed r := fun i t old => plain (types old)
    refine (named published).resolve_right ?_
    rintro ⟨c, j, array, title, different⟩
    -- The name stands for an array, whose component has the name of the first one's component.
    obtain ⟨v, published', name⟩ := coherent'.published_of_named title
    cases component' : v.component? with
    | none => exact plain published' component' _ name
    | some c' =>
      have array' : r'.component? j = some c' := (component?_of_get? published'.1).trans component'
      have same := append_suffix_inj (arrays title array')
      obtain ⟨u, there⟩ := components published ((component?_of_get? published.1).symm.trans array)
      obtain ⟨u', there'⟩ := components published' component'
      rw [typeName there, typeName there', typeName_eq there.1, typeName_eq there'.1] at same
      have title₁ := before.plain plainBefore there
      have title₂ := before.plain plainBefore there'
      rw [same, title₂] at title₁
      cases title₁
      exact different (coherent'.array_unique array' array)

theorem Titled.congr (before : Titled r) (coherent : Coherent r) (coherent' : Coherent r')
    (names : r'.names = r.names) (types : ∀ {i t}, Published r' i t ↔ Published r i t) :
    Titled r' := by
  apply before.grow coherent coherent' (keepsNames_of_same names) types.mpr
  · exact fun published => Or.inl (types.mp published)
  · intro n a named
    rw [named?, names] at named
    exact Or.inl named

theorem published_reserve : Published r.reserve.2 i t ↔ Published r i t := by
  obtain ⟨same, _, _, _, _, pending⟩ := reserve_frame r
  rw [Published, Published, same, pending]

/-- What waits for its name is not published. -/
theorem published_place_waiting (slot : Reserved r t.id) :
    Published (r.place t true) i u ↔ Published r i u := by
  unfold Published
  rw [get?_place slot, mem_pending_place]
  constructor
  · rintro ⟨found, settled⟩
    rw [not_or] at settled
    rw [if_neg (fun same => settled.1 ⟨rfl, same⟩)] at found
    exact ⟨found, settled.2⟩
  · rintro ⟨found, settled⟩
    have different := slot.ne_of_live found
    rw [if_neg different]
    exact ⟨found, by simp [different, settled]⟩

theorem published_fill (waits : t.id ∈ r.pending) :
    Published (r.fill t) i u ↔ Published r i u := by
  have pending : (r.fill t).pending = r.pending := rfl
  unfold Published
  rw [pending]
  refine and_congr_left fun settled => ?_
  rw [get?_fill_other]
  rintro rfl
  exact settled waits

theorem Titled.reserve (before : Titled r) (coherent : Coherent r) : Titled r.reserve.2 :=
  before.congr coherent coherent.reserve (reserve_frame r).2.1 published_reserve

/-- A type may be published under a free name; an array under the name of its component with
brackets. -/
theorem Titled.publish (before : Titled r) (coherent : Coherent r) (coherent' : Coherent r')
    (free : r.named? t.name = none) (names : r'.names = (t.name, t.id) :: r.names)
    (types : ∀ {i u}, Published r' i u ↔ (i = t.id ∧ u = t) ∨ Published r i u)
    (array : ∀ c, t.component? = some c → ∃ u, Published r c u ∧ t.name = u.name ++ arraySuffix) :
    Titled r' := by
  have title : ∀ n, r'.named? n = if n = t.name then some t.id else r.named? n := by
    intro n
    rw [named?, names]
    exact named?_cons t.name n t.id
  have own : Published r' t.id t := types.mpr (Or.inl ⟨rfl, rfl⟩)
  apply before.grow coherent coherent' (keepsNames_add free names)
  · exact fun old => types.mpr (Or.inr old)
  · intro i u published
    rcases types.mp published with ⟨rfl, rfl⟩ | old
    · refine Or.inr ⟨Or.inl (by rw [title, if_pos rfl]), ?_⟩
      intro c component
      obtain ⟨v, there, _⟩ := array c component
      exact ⟨v, there⟩
    · exact Or.inl old
  · intro n a named
    rw [title] at named
    split at named
    · next same =>
      cases named
      refine Or.inr fun c component => ?_
      rw [component?_of_get? own.1] at component
      obtain ⟨v, there, name⟩ := array c component
      rw [same, name, typeName_eq (types.mpr (Or.inr there)).1]
    · exact Or.inl named

theorem published_place (slot : Reserved r t.id) (coherent : Coherent r) :
    Published (r.place t false) i u ↔ (i = t.id ∧ u = t) ∨ Published r i u := by
  unfold Published
  rw [get?_place slot, mem_pending_place]
  by_cases same : i = t.id
  · have settled : i ∉ r.pending := by
      intro waits
      obtain ⟨v, there, _⟩ := coherent.pending waits
      exact slot.ne_of_live there same
    simp [same, same ▸ settled, slot.empty, eq_comm]
  · simp [same]

theorem Titled.arrayOf (before : Titled r) (coherent : Coherent r) (c : TypeId) :
    Titled (stateAfter (arrayOf c r)) := by
  have outcome := arrayOf_outcome r c
  have coherent' := outcome.coherent coherent
  obtain ⟨same, names, _⟩ := reserve_frame r
  have slot := coherent.reserved
  generalize Registry.arrayOf c r = result at outcome coherent'
  cases outcome with
  | existing entry => exact before
  | refused absent reason => exact before
  | @waiting ct absent found notVoid waits =>
    exact (before.reserve coherent).congr coherent.reserve coherent' rfl
      (published_place_waiting (t := nextArray r c ct) slot)
  | taken absent found settled => exact before.reserve coherent
  | @published ct absent found notVoid settled free =>
    apply (before.reserve coherent).publish (t := nextArray r c ct) coherent.reserve coherent'
    · rw [named?, names]
      exact free
    · rfl
    · exact published_place slot coherent.reserve
    · rintro d component
      cases component
      exact ⟨ct, published_reserve.mpr ⟨found, settled⟩, rfl⟩

theorem Titled.resolved (before : Titled r) (settled : Settled r) (resolver : TypeId → Resolver) :
    Titled (r.resolved resolver).2 := by
  have begun : Titled r.beginDefinition.2 := by
    apply (before.reserve settled.coherent).congr settled.coherent.reserve
      settled.beginDefinition.coherent rfl
    exact published_place_waiting (t := .blank r.reserve.1) settled.coherent.reserved
  have step : ∀ r' c, Defining r r.beginDefinition.1 r' ∧ Titled r' →
      Defining r r.beginDefinition.1 (stateAfter (Registry.arrayOf c r')) ∧
        Titled (stateAfter (Registry.arrayOf c r')) :=
    fun r' c between => ⟨between.1.arrayOf c, between.2.arrayOf between.1.coherent c⟩
  exact ((resolver _).keeps step ⟨settled.beginDefinition, begun⟩).2

theorem Titled.release (before : Titled r) (defining : Defining origin id r) :
    Titled (r.release id) := by
  apply before.congr defining.coherent defining.release.1.coherent rfl
  intro i t
  rw [Published, Published, defining.get?_release, defining.pending_release]
  by_cases waits : i ∈ r.pending
  · simp [waits]
  · simp [waits]

/-- Of a type and the arrays over it, the type is named first. -/
theorem Titled.nameType (before : Titled r) (defining : Defining origin id r)
    (found : r.get? id = some t) (noArray : t.component? = none)
    (rooted : t.isClass → ∃ s, t.superclass = some s) (free : r.named? t.name = none) :
    Titled { r with
      pending := r.pending.filter (fun p => p != id)
      names := (t.name, id) :: r.names } := by
  have own := defining.coherent.ids found
  apply before.publish (t := t) defining.coherent (defining.coherent_named found rooted) free
  · rw [own]
  · intro i u
    change r.get? i = some u ∧ i ∉ r.pending.filter (fun p => p != id) ↔ _
    rw [own]
    by_cases same : i = id
    · simp [same, found, defining.waits, Published, eq_comm]
    · simp [same, Published]
  · intro c component
    rw [noArray] at component
    cases component

/-- An array stops waiting and gets its name. -/
theorem Titled.nameArray (before : Titled r) (coherent : Coherent r)
    (entry : r.arrays.lookup c = some a) (waits : a ∈ r.pending) (component : Published r c u)
    (free : r.named? (r.typeName c ++ arraySuffix) = none) :
    Titled { { r with pending := r.pending.filter (fun p => p != a) }.fill
      (arrayType a c (r.typeName c ++ arraySuffix)) with
      names := (r.typeName c ++ arraySuffix, a) :: r.names } := by
  obtain ⟨v, there, _⟩ := coherent.arrays.mp entry
  apply before.publish (t := arrayType a c (r.typeName c ++ arraySuffix)) coherent
    (coherent.nameArray entry waits _) free rfl
  · intro i w
    change (r.fill (arrayType a c (r.typeName c ++ arraySuffix))).get? i = some w ∧
      i ∉ r.pending.filter (fun p => p != a) ↔ (i = a ∧ _) ∨ _
    rw [get?_fill (t := arrayType a c _) (inRange_of_get? there)]
    change (if i = a then _ else _) = _ ∧ _ ↔ _
    by_cases same : i = a
    · simp [same, waits, Published, eq_comm]
    · simp [same, Published]
  · rintro d array
    cases array
    exact ⟨u, component, by rw [typeName_eq component.1]; rfl⟩

theorem install_error {e : NativeError} (failure : r.install t = .error e) :
    ∃ j, r.named? t.name = some j := by
  unfold install at failure
  split at failure
  · next j taken => exact ⟨j, taken⟩
  · cases failure

/-- An array stops waiting although its name stands for another type. -/
theorem Titled.displaceArray (before : Titled r) (coherent : Coherent r)
    (entry : r.arrays.lookup c = some a) (waits : a ∈ r.pending) (component : Published r c u)
    (taken : r.named? (r.typeName c ++ arraySuffix) = some j) :
    Titled { r with pending := r.pending.filter (fun p => p != a) } := by
  obtain ⟨v, there, array⟩ := coherent.arrays.mp entry
  have inner : v.component? = some c := TypeInfo.component?_eq.mpr array
  apply before.grow coherent (coherent.settleArray entry) (keepsNames_of_same rfl)
  · rintro i w ⟨found, settled⟩
    exact ⟨found, fun waits => settled (List.mem_filter.mp waits).1⟩
  · rintro i w ⟨found, settled⟩
    have found : r.get? i = some w := found
    by_cases same : i = a
    · rw [same, there] at found
      cases found
      refine Or.inr ⟨Or.inr ?_, ?_⟩
      · refine ⟨c, j, ?_, ?_, ?_⟩
        · rw [same]
          exact (component?_of_get? there).trans inner
        · exact taken
        · rintro rfl
          exact coherent.unnamed waits (same ▸ taken)
      · intro d array
        rw [inner] at array
        cases array
        exact ⟨u, component⟩
    · refine Or.inl ⟨found, fun waits => settled ?_⟩
      exact List.mem_filter.mpr ⟨waits, by simpa using same⟩
  · exact fun named => Or.inl named

/-- Going up the arrays over a published type, each gets its name or is displaced. -/
theorem publishArrays_titled (fuel : Nat) (coherent : Coherent r) (titled : Titled r)
    (published : Published r c u) (chain : ArraysFrom r.arrays c outer) (nodup : outer.Nodup)
    (pending : r.pending = outer.reverse) : Titled (publishArrays fuel c r).1 := by
  induction outer generalizing r c u fuel with
  | nil =>
    cases chain with
    | last absent =>
      cases fuel with
      | zero => exact titled
      | succ fuel =>
        simp only [publishArrays, absent]
        exact titled
  | cons a outer ih =>
    cases chain with
    | next entry rest =>
      cases fuel with
      | zero => exact titled
      | succ fuel =>
        obtain ⟨unlike, inner⟩ := List.nodup_cons.mp nodup
        have waits : a ∈ r.pending := by simp [pending]
        have others := pending_without pending unlike
        obtain ⟨v, there, _⟩ := coherent.arrays.mp entry
        simp only [publishArrays, entry, isPending, List.contains_iff_mem, waits, if_true]
        split
        · next r₁ success =>
          obtain ⟨free, rfl⟩ := install_ok success
          have own : a ∉ r.pending.filter (fun p => p != a) := by simp
          refine ih (u := arrayType a c (r.typeName c ++ arraySuffix)) fuel
            (coherent.nameArray entry waits _)
            (titled.nameArray coherent entry waits published free) ⟨?_, own⟩ rest inner others
          exact get?_fill_self (t := arrayType a c _) (inRange_of_get? there)
        · next failure =>
          obtain ⟨j, taken⟩ := install_error failure
          have own : a ∉ r.pending.filter (fun p => p != a) := by simp
          exact ih fuel (coherent.settleArray entry)
            (titled.displaceArray coherent entry waits published taken) ⟨there, own⟩ rest inner
            others

theorem Titled.completeDefinition (before : Titled r) (defining : Defining origin id r)
    (draft : TypeDraft) : Titled (stateAfter (completeDefinition id draft r).1) := by
  have headed := defining.withHeader draft
  have titled : Titled (r.withHeader id draft) :=
    before.congr defining.coherent headed.coherent rfl (published_fill defining.waits)
  have outcome := completion_outcome r id draft
  generalize (Registry.completeDefinition id draft r).1 = result at outcome
  cases outcome with
  | released e => exact titled.release headed
  | @published t checked free =>
    have built := buildType_ok headed.coherent checked
    obtain ⟨filled, self⟩ := headed.fillBuilt built
    have waits : t.id ∈ (r.withHeader id draft).pending := by
      rw [built.own_id]
      exact headed.waits
    have titled := titled.congr headed.coherent filled.coherent rfl (published_fill waits)
    have named := titled.nameType filled self built.component? built.rooted free
    obtain ⟨outer, others, chain, nodup, _⟩ := filled.arrays_left
    rw [built.own_id]
    exact publishArrays_titled _ (filled.coherent_named self built.rooted) named
      ⟨self, by simp⟩ chain nodup others

theorem Titled.defineWith (before : Titled r) (settled : Settled r)
    (resolver : TypeId → Resolver) : Titled (stateAfter (r.defineWith resolver).1) :=
  (before.resolved settled resolver).completeDefinition
    (settled.beginDefinition.resolve (resolver r.beginDefinition.1)) _

theorem Titled.apply (before : Titled r) (settled : Settled r) (operation : Operation) :
    Titled (operation.apply r) := by
  have asked : ∀ r' c, Settled r' ∧ Titled r' → Settled (stateAfter (Registry.arrayOf c r')) ∧
      Titled (stateAfter (Registry.arrayOf c r')) :=
    fun r' c between => ⟨between.1.arrayOf c, between.2.arrayOf between.1.coherent c⟩
  have coherent := settled.coherent
  have reserved := before.reserve coherent
  have keptFree : ∀ {n}, r.named? n = none → r.reserve.2.named? n = none := by
    intro n free
    rwa [named?, (reserve_frame r).2.1]
  cases operation with
  | define draft =>
    simp only [Operation.apply, define_eq]
    split
    · exact before
    · exact before.defineWith settled _
  | defineWith resolver => exact before.defineWith settled resolver
  | lookup name => exact (lookup_keeps asked name ⟨settled, before⟩).2
  | arrayOf component => exact before.arrayOf coherent component
  | newArray world component elements =>
    simp only [Operation.apply, newArray_registry]
    exact before.arrayOf coherent component
  | generateSubclass base =>
    have outcome := generateSubclass_outcome r base
    have settled' := (outcome.settled settled).1
    simp only [Operation.apply]
    generalize (Registry.generateSubclass base r).1 = result at outcome settled'
    cases outcome with
    | existing entry => exact before
    | refused e => exact before
    | taken e => exact reserved
    | @made bt found isClass isOpen free =>
      have plain : (subclassType r base bt).component? = none := rfl
      refine reserved.publish (t := subclassType r base bt) coherent.reserve settled'.coherent
        (keptFree free) rfl (published_place coherent.reserved coherent.reserve) ?_
      simp [plain]
  | generateImplementation interface =>
    have outcome := generateImplementation_outcome r interface
    have settled' := (outcome.settled settled).1
    simp only [Operation.apply]
    generalize (Registry.generateImplementation interface r).1 = result at outcome settled'
    cases outcome with
    | existing entry => exact before
    | refused e => exact before
    | taken e => exact reserved
    | @made it found isInterface free =>
      have plain : (implementationType r interface it).component? = none := rfl
      refine reserved.publish (t := implementationType r interface it) coherent.reserve
        settled'.coherent (keptFree free) rfl (published_place coherent.reserved coherent.reserve)
        ?_
      simp [plain]

theorem titled_initial : Titled initial := by
  have all : firstTypes.all (fun t => t.component? = none ∧ initial.named? t.name = some t.id) =
      true := by
    decide
  have first : ∀ {i t}, initial.get? i = some t →
      t.component? = none ∧ initial.named? t.name = some i := by
    intro i t found
    obtain ⟨listed, rfl⟩ := initial_get?_iff.mp found
    simpa using List.all_eq_true.mp all t listed
  refine ⟨fun published => Or.inl (first published.1).2, ?_, ?_,
    fun _ _ _ published => (first published.1).2⟩
  · intro n a c named array
    obtain ⟨t, found, _⟩ := coherent_initial.names named
    rw [component?_of_get? found, (first found).1] at array
    cases array
  · intro a t c published array
    rw [(first published.1).1] at array
    cases array

theorem titled_afterAll (operations : List Operation) : Titled (afterAll operations) := by
  induction operations using List.reverseRecOn with
  | nil => exact titled_initial
  | append_singleton earlier operation ih =>
    have last : afterAll (earlier ++ [operation]) = operation.apply (afterAll earlier) := by
      simp [afterAll]
    rw [last]
    exact ih.apply (settled_afterAll earlier) operation

end Interop.Registry
