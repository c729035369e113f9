import Interop.Proofs.Registry.Slots

/-!
Coherence: the indexes of a registry describe its slots, and a type mentions only types that are
there. The invariant is kept by each elementary update (reserve a slot, fill it, add an entry to an
index), and operations are compositions of those.

Coherence also holds while a type is being defined. What then waits for its name is in `pending`;
such types have no name yet, are not generated, and nothing inherits from them.
-/
namespace Interop

namespace TypeInfo

/-- The types that a type inherits from. -/
def supers (t : TypeInfo) : List TypeId := t.superclass.toList ++ t.interfaces

/-- The types that a type is made of: what it inherits from, and the component of an array. -/
def parents (t : TypeInfo) : List TypeId := t.supers ++ t.component?.toList

/-- The types of parameters, results and fields. -/
def memberTypes (t : TypeInfo) : List TypeId :=
  t.methods.flatMap (fun m => m.returns :: m.params) ++ t.constructors.flatMap Constructor.params ++
    t.fields.map Field.type

/-- Every type that a type mentions. -/
def mentions (t : TypeInfo) : List TypeId := t.parents ++ t.memberTypes

theorem supers_subset_mentions {t : TypeInfo} {j : TypeId} (member : j ∈ t.supers) :
    j ∈ t.mentions := by
  simp [mentions, parents, member]

theorem component?_eq {t : TypeInfo} {c : TypeId} : t.component? = some c ↔ t.kind = .array c := by
  unfold component?
  split <;> simp_all

theorem component_mem_mentions {t : TypeInfo} {c : TypeId} (array : t.kind = .array c) :
    c ∈ t.mentions := by
  simp [mentions, parents, component?_eq.mpr array]

end TypeInfo

namespace Registry

/-- A type stands well in a registry: what it mentions is there and in the role in which it is
mentioned, and it declares its own members. -/
structure Fits (r : Registry) (t : TypeInfo) : Prop where
  mentions : ∀ j ∈ t.mentions, ∃ u, r.get? j = some u
  superclass : ∀ s, t.superclass = some s → ∃ u, r.get? s = some u ∧ u.isClass ∧
    u.modifiers.isFinal = false
  interfaces : ∀ j ∈ t.interfaces, ∃ u, r.get? j = some u ∧ u.isInterface
  component : ∀ c, t.kind = .array c → ∃ u, r.get? c = some u ∧ u.primitiveKind? ≠ some .void
  interface_alone : t.isInterface → t.superclass = none
  array_shape : ∀ c, t.kind = .array c → t = arrayType t.id c t.name
  primitive_first : t.isPrimitive → t ∈ primitiveTypes
  own_methods : ∀ m ∈ t.methods, m.declaring = t.id
  own_constructors : ∀ c ∈ t.constructors, c.declaring = t.id
  own_fields : ∀ f ∈ t.fields, f.declaring = t.id

structure Coherent (r : Registry) : Prop where
  ids : ∀ {i t}, r.get? i = some t → t.id = i
  fits : ∀ {i t}, r.get? i = some t → Fits r t
  names : ∀ {n i}, r.named? n = some i → ∃ t, r.get? i = some t ∧ t.name = n
  free_nodup : r.free.Nodup
  free_empty : ∀ {i}, i ∈ r.free → i.index < r.slots.length ∧ r.get? i = none
  arrays : ∀ {c a}, r.arrays.lookup c = some a ↔ ∃ t, r.get? a = some t ∧ t.kind = .array c
  subclasses : ∀ {b g}, r.subclasses.lookup b = some g →
    ∃ t, r.get? g = some t ∧ t.generated ∧ t.superclass = some b
  implementations : ∀ {b g}, r.implementations.lookup b = some g →
    ∃ t, r.get? g = some t ∧ t.generated ∧ t.interfaces = [b]
  first : ∀ {t}, t ∈ firstTypes → r.get? t.id = some t ∧ t.id ∉ r.pending
  rooted : ∀ {i t}, r.get? i = some t → i ∉ r.pending → t.isClass → i ≠ .object →
    ∃ s, t.superclass = some s
  unnamed : ∀ {p n}, p ∈ r.pending → r.named? n ≠ some p
  pending : ∀ {p}, p ∈ r.pending → ∃ t, r.get? p = some t ∧ t.generated = false
  supers_settled : ∀ {i t}, r.get? i = some t → ∀ s ∈ t.supers, s ∉ r.pending

variable {r r' : Registry} {i id a b c : TypeId} {t u : TypeInfo}

/-- A type keeps its standing where all it mentions is still there and all it inherits from is
unchanged. -/
theorem Fits.transfer (before : Fits r t)
    (live : ∀ j ∈ t.mentions, ∀ u, r.get? j = some u → ∃ u', r'.get? j = some u' ∧
      (u'.primitiveKind? = some .void → u.primitiveKind? = some .void))
    (supers : ∀ j ∈ t.supers, r'.get? j = r.get? j) : Fits r' t where
  mentions j member := by
    obtain ⟨u, found⟩ := before.mentions j member
    obtain ⟨u', found', _⟩ := live j member u found
    exact ⟨u', found'⟩
  superclass s superclass := by
    rw [supers s (by simp [TypeInfo.supers, superclass])]
    exact before.superclass s superclass
  interfaces j member := by
    rw [supers j (by simp [TypeInfo.supers, member])]
    exact before.interfaces j member
  component c array := by
    obtain ⟨u, found, notVoid⟩ := before.component c array
    obtain ⟨u', found', same⟩ := live c (TypeInfo.component_mem_mentions array) u found
    exact ⟨u', found', fun void => notVoid (same void)⟩
  interface_alone := before.interface_alone
  array_shape := before.array_shape
  primitive_first := before.primitive_first
  own_methods := before.own_methods
  own_constructors := before.own_constructors
  own_fields := before.own_fields

theorem Fits.mono (before : Fits r t) (larger : Extends r r') : Fits r' t := by
  apply before.transfer
  · intro j _ u found
    exact ⟨u, larger found, id⟩
  · intro j member
    obtain ⟨u, found⟩ := before.mentions j (TypeInfo.supers_subset_mentions member)
    rw [found, larger found]

/-- An array over an empty slot would mention a type that is not there. -/
theorem Coherent.no_array_over_empty (before : Coherent r) (empty : r.get? i = none) :
    r.arrays.lookup i = none := by
  rw [Option.eq_none_iff_forall_ne_some]
  intro a entry
  obtain ⟨t, found, array⟩ := before.arrays.mp entry
  obtain ⟨u, there, _⟩ := (before.fits found).component i array
  rw [empty] at there
  cases there

theorem Coherent.settled_of_generated (before : Coherent r) (found : r.get? i = some t)
    (generated : t.generated = true) :
    i ∉ r.pending := by
  intro waits
  obtain ⟨u, same, ungenerated⟩ := before.pending waits
  rw [found] at same
  cases same
  simp [ungenerated] at generated

/-- A reservation gives an empty slot that nothing else will be given. -/
theorem Coherent.reserved (before : Coherent r) : Reserved r.reserve.2 r.reserve.1 := by
  have same := (reserve_frame r).1 r.reserve.1
  unfold reserve at same ⊢
  split
  · next id rest free =>
    have member : id ∈ r.free := by simp [free]
    have nodup := before.free_nodup
    rw [free, List.nodup_cons] at nodup
    exact ⟨(before.free_empty member).1, (before.free_empty member).2, nodup.1⟩
  · next free => exact ⟨by simp, by simp [get?], by simp [free]⟩

theorem Coherent.reserve (before : Coherent r) : Coherent r.reserve.2 := by
  obtain ⟨same, names, arrays, subclasses, implementations, pending⟩ := reserve_frame r
  have larger := extends_reserve r
  constructor
  case ids =>
    intro i t found
    exact before.ids (same i ▸ found)
  case fits =>
    intro i t found
    exact (before.fits (same i ▸ found)).mono larger
  case names =>
    intro n i named
    simp only [named?, names, same] at named ⊢
    exact before.names named
  case free_nodup =>
    have nodup := before.free_nodup
    unfold Registry.reserve
    split
    · next free =>
      rw [free] at nodup
      exact (List.nodup_cons.mp nodup).2
    · exact nodup
  case free_empty =>
    intro i member
    rw [same]
    unfold Registry.reserve at member ⊢
    split at member
    · next free => exact before.free_empty (by simp [free, member])
    · next free => simp [free] at member
  case arrays =>
    intro c a
    simp only [arrays, same]
    exact before.arrays
  case subclasses =>
    intro b g entry
    simp only [subclasses, same] at entry ⊢
    exact before.subclasses entry
  case implementations =>
    intro b g entry
    simp only [implementations, same] at entry ⊢
    exact before.implementations entry
  case first =>
    intro t member
    simp only [pending, same]
    exact before.first member
  case rooted =>
    intro i t found settled
    simp only [pending, same] at found settled
    exact before.rooted found settled
  case unnamed =>
    intro p n member
    simp only [pending, named?, names] at member ⊢
    exact before.unnamed member
  case pending =>
    intro p member
    simp only [pending, same] at member ⊢
    exact before.pending member
  case supers_settled =>
    intro i t found
    simp only [pending, same] at found ⊢
    exact before.supers_settled found

/-- Puts a type into its slot and enters it as the array of its component. A type that waits for its
name is noted as pending. -/
def place (r : Registry) (t : TypeInfo) (waiting : Bool) : Registry :=
  { r.fill t with
    arrays := match t.component? with
      | some c => (c, t.id) :: r.arrays
      | none => r.arrays
    pending := if waiting then t.id :: r.pending else r.pending }

theorem get?_place (slot : Reserved r t.id) (waiting : Bool) (i : TypeId) :
    (r.place t waiting).get? i = if i = t.id then some t else r.get? i :=
  get?_fill slot.inRange i

theorem extends_place (slot : Reserved r t.id) (waiting : Bool) : Extends r (r.place t waiting) :=
  extends_fill slot.empty

theorem mem_pending_place {waiting : Bool} :
    i ∈ (r.place t waiting).pending ↔ (waiting = true ∧ i = t.id) ∨ i ∈ r.pending := by
  cases waiting <;> simp [place]

/-- The arrays after a placement are those before and, for an array type, the new one. -/
theorem lookup_arrays_place (waiting : Bool) (c : TypeId) :
    (r.place t waiting).arrays.lookup c =
      if t.component? = some c then some t.id else r.arrays.lookup c := by
  unfold place
  cases component : t.component? with
  | none => simp
  | some d =>
    by_cases same : c = d
    · simp [same]
    · simp [List.lookup_cons, beq_eq_false_iff_ne.mpr same, Ne.symm same]

/-- The array index stays exact if the component had no array yet. -/
theorem Coherent.arrays_place (before : Coherent r) (slot : Reserved r t.id) (waiting : Bool)
    (fresh : ∀ c, t.kind = .array c → r.arrays.lookup c = none) :
    (r.place t waiting).arrays.lookup c = some a ↔ ∃ u, (r.place t waiting).get? a = some u ∧
      u.kind = .array c := by
  have get := get?_place slot waiting
  rw [lookup_arrays_place]
  constructor
  · intro entry
    split at entry
    · next component =>
      cases entry
      exact ⟨t, by simp [get], TypeInfo.component?_eq.mp component⟩
    · obtain ⟨u, found, array⟩ := before.arrays.mp entry
      exact ⟨u, extends_place slot waiting found, array⟩
  · rintro ⟨u, found, array⟩
    rw [get] at found
    split at found
    · next same =>
      cases found
      rw [if_pos (TypeInfo.component?_eq.mpr array), same]
    · have entry := before.arrays.mpr ⟨u, found, array⟩
      rw [if_neg, entry]
      intro component
      rw [fresh c (TypeInfo.component?_eq.mp component)] at entry
      cases entry

theorem Coherent.place {waiting : Bool} (before : Coherent r) (slot : Reserved r t.id)
    (fits : Fits r t) (fresh : ∀ c, t.kind = .array c → r.arrays.lookup c = none)
    (plain : waiting = true → t.generated = false)
    (supers : ∀ s ∈ t.supers, s ∉ r.pending)
    (rooted : t.isClass → waiting = true ∨ ∃ s, t.superclass = some s) :
    Coherent (r.place t waiting) := by
  have get := get?_place slot waiting
  have larger := extends_place slot waiting
  have self : (r.place t waiting).get? t.id = some t := by simp [get]
  constructor
  case ids =>
    intro i u found
    rw [get] at found
    split at found
    · next same =>
      cases found
      exact same.symm
    · exact before.ids found
  case fits =>
    intro i u found
    rw [get] at found
    split at found
    · cases found
      exact fits.mono larger
    · exact (before.fits found).mono larger
  case names =>
    intro n i named
    obtain ⟨u, found, name⟩ := before.names named
    exact ⟨u, larger found, name⟩
  case free_nodup => exact before.free_nodup
  case free_empty =>
    intro i member
    obtain ⟨inRange, empty⟩ := before.free_empty member
    have different : i ≠ t.id := by
      rintro rfl
      exact slot.taken member
    refine ⟨?_, ?_⟩
    · simpa [Registry.place, fill_length] using inRange
    · rw [get, if_neg different]
      exact empty
  case arrays =>
    intro c a
    exact before.arrays_place slot waiting fresh
  case subclasses =>
    intro b g entry
    obtain ⟨u, found, facts⟩ := before.subclasses entry
    exact ⟨u, larger found, facts⟩
  case implementations =>
    intro b g entry
    obtain ⟨u, found, facts⟩ := before.implementations entry
    exact ⟨u, larger found, facts⟩
  case first =>
    intro u member
    obtain ⟨found, settled⟩ := before.first member
    refine ⟨larger found, ?_⟩
    rw [mem_pending_place]
    rintro (⟨_, same⟩ | waits)
    · exact slot.ne_of_live found same
    · exact settled waits
  case rooted =>
    intro i u found settled isClass notRoot
    rw [mem_pending_place] at settled
    rw [get] at found
    split at found
    · next same =>
      cases found
      rcases rooted isClass with waits | superclass
      · exact absurd (Or.inl ⟨waits, same⟩) settled
      · exact superclass
    · exact before.rooted found (fun waits => settled (Or.inr waits)) isClass notRoot
  case unnamed =>
    intro p n member named
    rw [mem_pending_place] at member
    obtain ⟨u, found, _⟩ := before.names named
    rcases member with ⟨_, same⟩ | waits
    · exact slot.ne_of_live found same
    · exact before.unnamed waits named
  case pending =>
    intro p member
    rw [mem_pending_place] at member
    rcases member with ⟨waits, same⟩ | waits
    · subst same
      exact ⟨t, self, plain waits⟩
    · obtain ⟨u, found, ungenerated⟩ := before.pending waits
      exact ⟨u, larger found, ungenerated⟩
  case supers_settled =>
    intro i u found s member
    rw [mem_pending_place]
    rw [get] at found
    have live : ∃ v, r.get? s = some v := by
      split at found
      · cases found
        exact fits.mentions s (TypeInfo.supers_subset_mentions member)
      · exact (before.fits found).mentions s (TypeInfo.supers_subset_mentions member)
    obtain ⟨v, there⟩ := live
    rintro (⟨_, same⟩ | waits)
    · exact slot.ne_of_live there same
    · split at found
      · cases found
        exact supers s member waits
      · exact before.supers_settled found s member waits

theorem Coherent.addName (before : Coherent r) (found : r.get? i = some t)
    (settled : i ∉ r.pending) :
    Coherent { r with names := (t.name, i) :: r.names } := by
  refine { before with
    names := ?_
    unnamed := ?_
    fits := fun found => (before.fits found).mono (Extends.refl r) }
  · intro n j named
    rw [named?_cons] at named
    split at named
    · next same =>
      cases named
      exact ⟨t, found, same.symm⟩
    · exact before.names named
  · intro p n waits named
    rw [named?_cons] at named
    split at named
    · cases named
      exact settled waits
    · exact before.unnamed waits named

theorem Coherent.addSubclass (before : Coherent r) (found : r.get? id = some t)
    (generated : t.generated) (superclass : t.superclass = some b) :
    Coherent { r with subclasses := (b, id) :: r.subclasses } := by
  refine { before with
    subclasses := ?_
    fits := fun found => (before.fits found).mono (Extends.refl r) }
  intro base g entry
  rw [List.lookup_cons] at entry
  by_cases same : base = b
  · subst same
    simp only [beq_self_eq_true, Option.some.injEq] at entry
    subst entry
    exact ⟨t, found, generated, superclass⟩
  · simp only [beq_eq_false_iff_ne.mpr same] at entry
    exact before.subclasses entry

theorem Coherent.addImplementation (before : Coherent r) (found : r.get? id = some t)
    (generated : t.generated) (interfaces : t.interfaces = [b]) :
    Coherent { r with implementations := (b, id) :: r.implementations } := by
  refine { before with
    implementations := ?_
    fits := fun found => (before.fits found).mono (Extends.refl r) }
  intro base g entry
  rw [List.lookup_cons] at entry
  by_cases same : base = b
  · subst same
    simp only [beq_self_eq_true, Option.some.injEq] at entry
    subst entry
    exact ⟨t, found, generated, interfaces⟩
  · simp only [beq_eq_false_iff_ne.mpr same] at entry
    exact before.implementations entry

/-- A pending type may be replaced by one that is an array of the same component or no array, too.
Nothing has inherited from it, no index but that of the arrays knows it. -/
theorem Coherent.replace (before : Coherent r) (found : r.get? t.id = some u)
    (waits : t.id ∈ r.pending)
    (component : t.component? = u.component?) (notPrimitive : t.isPrimitive = false)
    (plain : t.generated = false) (fits : Fits (r.fill t) t)
    (supers : ∀ s ∈ t.supers, s ∉ r.pending) :
    Coherent (r.fill t) := by
  have inRange := inRange_of_get? found
  have get := get?_fill inRange
  have self : (r.fill t).get? t.id = some t := by simp [get]
  have settled : ∀ {j}, j ∉ r.pending → j ≠ t.id := by
    rintro j notWaiting rfl
    exact notWaiting waits
  constructor
  case ids =>
    intro i v there
    rw [get] at there
    split at there
    · next same =>
      cases there
      exact same.symm
    · exact before.ids there
  case fits =>
    intro i v there
    rw [get] at there
    split at there
    · cases there
      exact fits
    · apply (before.fits there).transfer
      · intro j _ w old
        rw [get]
        split
        · refine ⟨t, rfl, fun void => ?_⟩
          rw [TypeInfo.isPrimitive, void] at notPrimitive
          cases notPrimitive
        · exact ⟨w, old, fun void => void⟩
      · intro j member
        rw [get, if_neg (settled (before.supers_settled there j member))]
  case names =>
    intro n i named
    obtain ⟨v, there, name⟩ := before.names named
    have different : i ≠ t.id := by
      rintro rfl
      exact before.unnamed waits named
    exact ⟨v, by rw [get, if_neg different]; exact there, name⟩
  case free_nodup => exact before.free_nodup
  case free_empty =>
    intro i member
    obtain ⟨within, empty⟩ := before.free_empty member
    have different : i ≠ t.id := by
      rintro rfl
      rw [empty] at found
      cases found
    refine ⟨by simpa [fill_length] using within, ?_⟩
    rw [get, if_neg different]
    exact empty
  case arrays =>
    intro c a
    change r.arrays.lookup c = some a ↔ _
    rw [before.arrays]
    by_cases same : a = t.id
    · subst same
      simp only [self, found, Option.some.injEq, exists_eq_left', ← TypeInfo.component?_eq,
        component]
    · rw [get, if_neg same]
  case subclasses =>
    intro b g entry
    obtain ⟨v, there, generated, superclass⟩ := before.subclasses entry
    have different := settled (before.settled_of_generated there generated)
    exact ⟨v, by rw [get, if_neg different]; exact there, generated, superclass⟩
  case implementations =>
    intro b g entry
    obtain ⟨v, there, generated, interfaces⟩ := before.implementations entry
    have different := settled (before.settled_of_generated there generated)
    exact ⟨v, by rw [get, if_neg different]; exact there, generated, interfaces⟩
  case first =>
    intro v member
    obtain ⟨there, notWaiting⟩ := before.first member
    exact ⟨by rw [get, if_neg (settled notWaiting)]; exact there, notWaiting⟩
  case rooted =>
    intro i v there notWaiting
    rw [get, if_neg (settled notWaiting)] at there
    exact before.rooted there notWaiting
  case unnamed => exact before.unnamed
  case pending =>
    intro p member
    by_cases same : p = t.id
    · subst same
      exact ⟨t, self, plain⟩
    · obtain ⟨v, there, ungenerated⟩ := before.pending member
      exact ⟨v, by rw [get, if_neg same]; exact there, ungenerated⟩
  case supers_settled =>
    intro i v there s member
    rw [get] at there
    split at there
    · cases there
      exact supers s member
    · exact before.supers_settled there s member

/-- Types stop waiting once the classes among them have a superclass. -/
theorem Coherent.settle (before : Coherent r) (still : TypeId → Bool)
    (rooted : ∀ p ∈ r.pending, still p = false → ∀ t, r.get? p = some t → t.isClass →
      ∃ s, t.superclass = some s) :
    Coherent { r with pending := r.pending.filter still } := by
  have fewer : ∀ {p}, p ∈ r.pending.filter still → p ∈ r.pending :=
    fun member => (List.mem_filter.mp member).1
  refine { before with
    fits := fun found => (before.fits found).mono (Extends.refl r), first := ?_, rooted := ?_,
    unnamed := fun member => before.unnamed (fewer member),
    pending := fun member => before.pending (fewer member), supers_settled := ?_ }
  · intro t member
    obtain ⟨found, settled⟩ := before.first member
    exact ⟨found, fun waits => settled (fewer waits)⟩
  · intro i t found settled isClass notRoot
    by_cases waits : i ∈ r.pending
    · have done : still i = false := by
        by_contra remains
        exact settled (List.mem_filter.mpr ⟨waits, by simpa using remains⟩)
      exact rooted i waits done t found isClass
    · exact before.rooted found waits isClass notRoot
  · intro i t found s member waits
    exact before.supers_settled found s member (fewer waits)

/-- Pending types may be removed as a whole when no other type mentions them. -/
theorem Coherent.discard (before : Coherent r) (nodup : r.pending.Nodup)
    (closed : ∀ {i t}, r.get? i = some t → i ∉ r.pending → ∀ j ∈ t.mentions, j ∉ r.pending)
    (components : ∀ {a t c}, a ∈ r.pending → r.get? a = some t → t.kind = .array c → c ∈ r.pending)
    (slots : ∀ i, r'.get? i = if i ∈ r.pending then none else r.get? i)
    (size : r'.slots.length = r.slots.length)
    (arrays : ∀ c, r'.arrays.lookup c = if c ∈ r.pending then none else r.arrays.lookup c)
    (free : r'.free = r.pending ++ r.free) (names : r'.names = r.names)
    (subclasses : r'.subclasses = r.subclasses)
    (implementations : r'.implementations = r.implementations)
    (pending : r'.pending = []) : Coherent r' := by
  have keep : ∀ {i t}, r'.get? i = some t → r.get? i = some t ∧ i ∉ r.pending := by
    intro i t found
    rw [slots] at found
    split at found
    · cases found
    · next settled => exact ⟨found, settled⟩
  have kept : ∀ {i}, i ∉ r.pending → r'.get? i = r.get? i := by
    intro i settled
    rw [slots, if_neg settled]
  constructor
  case ids =>
    intro i t found
    exact before.ids (keep found).1
  case fits =>
    intro i t found
    obtain ⟨old, settled⟩ := keep found
    apply (before.fits old).transfer
    · intro j member u there
      exact ⟨u, by rw [kept (closed old settled j member)]; exact there, fun void => void⟩
    · intro j member
      exact kept (before.supers_settled old j member)
  case names =>
    intro n i named
    simp only [named?, names] at named
    obtain ⟨t, found, name⟩ := before.names named
    have settled : i ∉ r.pending := fun waits => before.unnamed waits named
    exact ⟨t, by rw [kept settled]; exact found, name⟩
  case free_nodup =>
    rw [free, List.nodup_append]
    refine ⟨nodup, before.free_nodup, ?_⟩
    rintro p waits _ unused rfl
    obtain ⟨t, found, _⟩ := before.pending waits
    rw [(before.free_empty unused).2] at found
    cases found
  case free_empty =>
    intro i member
    rw [free, List.mem_append] at member
    rw [size, slots]
    rcases member with waits | unused
    · obtain ⟨t, found, _⟩ := before.pending waits
      exact ⟨inRange_of_get? found, by simp [waits]⟩
    · obtain ⟨inRange, empty⟩ := before.free_empty unused
      exact ⟨inRange, by simp [empty]⟩
  case arrays =>
    intro c a
    rw [arrays]
    constructor
    · intro entry
      split at entry
      · cases entry
      · next settled =>
        obtain ⟨t, found, array⟩ := before.arrays.mp entry
        refine ⟨t, ?_, array⟩
        rw [kept (fun waits => settled (components waits found array))]
        exact found
    · rintro ⟨t, found, array⟩
      obtain ⟨old, settled⟩ := keep found
      rw [if_neg (closed old settled c (TypeInfo.component_mem_mentions array))]
      exact before.arrays.mpr ⟨t, old, array⟩
  case subclasses =>
    intro b g entry
    rw [subclasses] at entry
    obtain ⟨t, found, generated, superclass⟩ := before.subclasses entry
    exact ⟨t, by rw [kept (before.settled_of_generated found generated)]; exact found, generated,
      superclass⟩
  case implementations =>
    intro b g entry
    rw [implementations] at entry
    obtain ⟨t, found, generated, interfaces⟩ := before.implementations entry
    exact ⟨t, by rw [kept (before.settled_of_generated found generated)]; exact found, generated,
      interfaces⟩
  case first =>
    intro t member
    obtain ⟨found, settled⟩ := before.first member
    exact ⟨by rw [kept settled]; exact found, by simp [pending]⟩
  case rooted =>
    intro i t found _
    obtain ⟨old, settled⟩ := keep found
    exact before.rooted old settled
  case unnamed =>
    intro p n member
    simp [pending] at member
  case pending =>
    intro p member
    simp [pending] at member
  case supers_settled =>
    intro i t _ s _
    simp [pending]

end Registry

end Interop
