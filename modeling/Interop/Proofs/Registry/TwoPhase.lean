import Interop.Proofs.Registry.CheckedDrafts

/-!
Definition in two phases. Between the phases the registry holds a placeholder, and references may be
resolved in it: that makes array types, some of them over the placeholder. `Defining` says what a
registry is like then. A definition that succeeds names the type and those arrays; one that fails
takes them all away. Either way the registry is settled again and has all the types it had before.
-/
namespace Interop.Registry

variable {r r' origin : Registry} {i a c d id : TypeId} {t u : TypeInfo} {outer : List TypeId}
  {arrays arrays' : List (TypeId × TypeId)} {rank : TypeId → Nat}

/-- How a draft is made of references: names are looked up and array types asked for, and the
answers may decide how it goes on. -/
inductive Resolver where
  | done (draft : TypeDraft)
  | lookup (name : String) (next : Option TypeId → Resolver)
  | arrayOf (component : TypeId) (next : Except NativeError TypeId → Resolver)

def Resolver.run : Resolver → Registry → TypeDraft × Registry
  | .done draft, r => (draft, r)
  | .lookup name next, r =>
    let (found, r) := Registry.lookup name r
    (next found).run r
  | .arrayOf component next, r =>
    match Registry.arrayOf component r with
    | .ok array r => (next (.ok array)).run r
    | .error e r => (next (.error e)).run r

/-- Looking up a name changes the registry by asking for arrays only. -/
theorem lookupArray_keeps {P : Registry → Prop} (step : ∀ r c, P r → P (stateAfter (arrayOf c r)))
    (base : String) (dimensions : Nat) (before : P r) : P (lookupArray base dimensions r).2 := by
  induction dimensions generalizing r with
  | zero => exact before
  | succ n ih =>
    unfold lookupArray
    split
    · exact before
    · have inner := ih before
      split
      · next lookedUp =>
        rw [lookedUp] at inner
        exact inner
      · next component r₁ lookedUp =>
        rw [lookedUp] at inner
        have asked := step r₁ component inner
        split
        · next made =>
          rw [made] at asked
          exact asked
        · next failed =>
          rw [failed] at asked
          exact asked

theorem lookup_keeps {P : Registry → Prop} (step : ∀ r c, P r → P (stateAfter (arrayOf c r)))
    (name : String) (before : P r) : P (lookup name r).2 :=
  lookupArray_keeps step _ _ before

theorem Resolver.keeps {P : Registry → Prop}
    (step : ∀ r c, P r → P (stateAfter (Registry.arrayOf c r)))
    (resolver : Resolver) (before : P r) : P (resolver.run r).2 := by
  induction resolver generalizing r with
  | done draft => exact before
  | lookup name next ih => exact ih _ (lookup_keeps step name before)
  | arrayOf c next ih =>
    have asked := step r c before
    unfold Resolver.run
    split
    · next made =>
      rw [made] at asked
      exact ih _ asked
    · next failed =>
      rw [failed] at asked
      exact ih _ asked

/-- The array of a type, the array of that, and so on: all there are, innermost first. -/
inductive ArraysFrom (arrays : List (TypeId × TypeId)) : TypeId → List TypeId → Prop where
  | last {c : TypeId} (absent : arrays.lookup c = none) : ArraysFrom arrays c []
  | next {c a : TypeId} {outer : List TypeId} (entry : arrays.lookup c = some a)
      (rest : ArraysFrom arrays a outer) :
      ArraysFrom arrays c (a :: outer)

theorem ArraysFrom.congr (chain : ArraysFrom arrays c outer)
    (same : ∀ d ∈ c :: outer, arrays'.lookup d = arrays.lookup d) : ArraysFrom arrays' c outer := by
  induction chain with
  | last absent =>
    apply ArraysFrom.last
    rw [same _ List.mem_cons_self]
    exact absent
  | next entry rest ih =>
    refine ArraysFrom.next ?_ (ih fun d member => same d (List.mem_cons_of_mem _ member))
    rw [same _ List.mem_cons_self]
    exact entry

/-- A new array is over the outermost one there was. -/
theorem ArraysFrom.snoc (chain : ArraysFrom arrays c outer) (belongs : d ∈ c :: outer)
    (absent : arrays.lookup d = none) (entry : arrays'.lookup d = some a)
    (last : arrays'.lookup a = none) (others : ∀ e, e ≠ d → arrays'.lookup e = arrays.lookup e) :
    ArraysFrom arrays' c (outer ++ [a]) := by
  induction chain with
  | last _ =>
    rw [List.mem_singleton] at belongs
    subst belongs
    exact .next entry (.last last)
  | @next c b outer inner rest ih =>
    have different : c ≠ d := by
      rintro rfl
      rw [absent] at inner
      cases inner
    rcases List.mem_cons.mp belongs with same | later
    · exact absurd same.symm different
    · exact .next (by rw [others c different]; exact inner) (ih later)

/-- Every array over a type has its component in the chain. -/
theorem ArraysFrom.component (chain : ArraysFrom arrays c outer) (member : a ∈ outer) :
    ∃ d ∈ c :: outer, arrays.lookup d = some a := by
  induction chain with
  | last _ => cases member
  | next entry rest ih =>
    rcases List.mem_cons.mp member with rfl | later
    · exact ⟨_, List.mem_cons_self, entry⟩
    · obtain ⟨d, belongs, found⟩ := ih later
      exact ⟨d, List.mem_cons_of_mem _ belongs, found⟩

theorem length_filter_key_lt (entry : arrays.lookup c = some a) :
    (arrays.filter (fun entry => entry.1 != c)).length < arrays.length := by
  obtain ⟨front, back, split, _⟩ := List.lookup_eq_some_iff.mp entry
  rw [List.length_filter_lt_length_iff_exists]
  exact ⟨(c, a), by simp [split], by simp⟩

/-- Detaching takes the whole chain out of the index. -/
theorem detachArrays_eq {fuel : Nat} (chain : ArraysFrom arrays c outer)
    (nodup : (c :: outer).Nodup) (enough : arrays.length ≤ fuel) :
    (detachArrays fuel c arrays).1 = outer ∧
      ∀ d, (detachArrays fuel c arrays).2.lookup d =
        if d ∈ c :: outer then none else arrays.lookup d := by
  induction outer generalizing c arrays fuel with
  | nil =>
    cases chain with
    | last absent =>
      have unchanged : detachArrays fuel c arrays = ([], arrays) := by
        cases fuel with
        | zero => rfl
        | succ fuel => simp [detachArrays, absent]
      rw [unchanged]
      refine ⟨rfl, ?_⟩
      intro d
      split
      · next same =>
        rw [List.mem_singleton] at same
        rw [same]
        exact absent
      · rfl
  | cons a outer ih =>
    cases chain with
    | next entry rest =>
      have shorter := length_filter_key_lt entry
      obtain ⟨fuel, rfl⟩ : ∃ n, fuel = n + 1 := ⟨fuel - 1, by omega⟩
      obtain ⟨unlike, inner⟩ := List.nodup_cons.mp nodup
      have others : ∀ d ∈ a :: outer, (arrays.filter (fun entry => entry.1 != c)).lookup d =
          arrays.lookup d := by
        intro d member
        have different : d ≠ c := by
          rintro rfl
          exact unlike member
        rw [lookup_filter_ne, if_neg (by simpa using different)]
      have left : (arrays.filter (fun entry => entry.1 != c)).length ≤ fuel := by omega
      obtain ⟨slots, index⟩ := ih (rest.congr others) inner left
      simp only [detachArrays, entry]
      refine ⟨by rw [slots], ?_⟩
      intro d
      rw [index, lookup_filter_ne]
      by_cases same : d = c
      · simp [same]
      · simp [same]

/-- The registry while the type in slot `id` is being defined, which began in `origin`. Only the
slot and arrays over it are pending, none of them was there before, and no other type mentions
them. -/
structure Defining (origin : Registry) (id : TypeId) (r : Registry) : Prop where
  coherent : Coherent r
  grows : Extends origin r
  chain : ∃ outer, r.pending = outer.reverse ++ [id] ∧ ArraysFrom r.arrays id outer
  nodup : r.pending.Nodup
  fresh : ∀ {p}, p ∈ r.pending → origin.get? p = none
  closed : ∀ {i t}, r.get? i = some t → i ∉ r.pending → ∀ j ∈ t.mentions, j ∉ r.pending
  placeholder : ∃ t, r.get? id = some t ∧ t.component? = none
  known : ∀ {i t}, r.get? i = some t → i ≠ id → t.component? = none → origin.get? i = some t
  ranked : ∃ rank, Ranked r rank ∧ ∀ {i t}, r.get? i = some t → i ≠ id → t.component? = none →
    rank i < rank id

theorem Defining.waits (defining : Defining origin id r) : id ∈ r.pending := by
  obtain ⟨outer, pending, _⟩ := defining.chain
  simp [pending]

/-- What is pending besides the type itself is an array of something pending. -/
theorem Defining.pending_array (defining : Defining origin id r) (member : i ∈ r.pending)
    (different : i ≠ id) :
    ∃ u c, r.get? i = some u ∧ u.kind = .array c ∧ c ∈ r.pending := by
  obtain ⟨outer, pending, chain⟩ := defining.chain
  have isOuter : i ∈ outer := by simpa [pending, different] using member
  obtain ⟨c, belongs, entry⟩ := chain.component isOuter
  obtain ⟨u, found, array⟩ := defining.coherent.arrays.mp entry
  exact ⟨u, c, found, array, by simpa [pending, or_comm] using belongs⟩

theorem Defining.component_pending (defining : Defining origin id r) (member : a ∈ r.pending)
    (found : r.get? a = some t) (array : t.kind = .array c) : c ∈ r.pending := by
  have different : a ≠ id := by
    rintro rfl
    obtain ⟨u, there, noArray⟩ := defining.placeholder
    rw [found] at there
    cases there
    rw [TypeInfo.component?_eq.mpr array] at noArray
    cases noArray
  obtain ⟨u, d, there, arrayOf, belongs⟩ := defining.pending_array member different
  rw [found] at there
  cases there
  rw [array] at arrayOf
  cases arrayOf
  exact belongs

/-- A type that is no array and not the one under definition waits for nothing. -/
theorem Defining.settled (defining : Defining origin id r) (found : r.get? i = some t)
    (different : i ≠ id) (noArray : t.component? = none) : i ∉ r.pending := by
  intro waits
  obtain ⟨u, c, there, array, _⟩ := defining.pending_array waits different
  rw [found] at there
  cases there
  rw [TypeInfo.component?_eq.mpr array] at noArray
  cases noArray

theorem fits_placeholder {kind : TypeKind} (plain : kind = .cls ∨ kind = .interface) (r : Registry)
    (id : TypeId)
    (name : String) : Fits r { TypeInfo.blank id with name := name, kind := kind } := by
  constructor
  case mentions => rcases plain with rfl | rfl <;> exact nofun
  case superclass => exact nofun
  case interfaces => exact nofun
  case component =>
    rintro c rfl
    rcases plain with never | never <;> cases never
  case interface_alone => exact fun _ => rfl
  case array_shape =>
    rintro c rfl
    rcases plain with never | never <;> cases never
  case primitive_first => rcases plain with rfl | rfl <;> exact nofun
  case own_methods => exact nofun
  case own_constructors => exact nofun
  case own_fields => exact nofun

/-- The first phase: from a settled registry to one with a placeholder. -/
theorem Settled.beginDefinition (settled : Settled r) :
    Defining r r.beginDefinition.1 r.beginDefinition.2 := by
  change Defining r r.reserve.1 (r.reserve.2.place (.blank r.reserve.1) true)
  obtain ⟨same, _, arrays, _, _, pending⟩ := reserve_frame r
  rw [settled.idle] at pending
  have coherent := settled.coherent.reserve
  have slot : Reserved r.reserve.2 (TypeInfo.blank r.reserve.1).id := settled.coherent.reserved
  have fits : Fits r.reserve.2 (.blank r.reserve.1) := fits_placeholder (Or.inl rfl) _ _ _
  have other : ∀ {i}, i ≠ r.reserve.1 → (r.reserve.2.place (.blank r.reserve.1) true).get? i =
      r.get? i :=
    fun different => (get?_place slot true _).trans ((if_neg different).trans (same _))
  have placed : (r.reserve.2.place (.blank r.reserve.1) true).pending = [r.reserve.1] := by
    simp [place, pending, TypeInfo.blank]
  have unused : r.get? r.reserve.1 = none := by
    rw [← same]
    exact slot.empty
  obtain ⟨rank, ranked⟩ := settled.ranked
  obtain ⟨bound, above⟩ := exists_rank_bound r rank
  constructor
  case coherent =>
    apply coherent.place slot fits
    · intro c array
      cases array
    · exact fun _ => rfl
    · intro s member
      cases member
    · exact fun _ => Or.inl rfl
  case grows => exact (extends_reserve r).trans (extends_place slot true)
  case chain =>
    have noArray : (TypeInfo.blank r.reserve.1).component? = none := rfl
    refine ⟨[], placed, .last ?_⟩
    rw [lookup_arrays_place, noArray, if_neg (by simp), arrays]
    exact settled.coherent.no_array_over_empty unused
  case nodup => simp [placed]
  case fresh =>
    intro p member
    rw [placed, List.mem_singleton] at member
    rw [member]
    exact unused
  case closed =>
    intro i t found notPending j member
    rw [placed, List.mem_singleton] at notPending ⊢
    rw [other notPending] at found
    obtain ⟨u, there⟩ := (settled.coherent.fits found).mentions j member
    rintro rfl
    rw [unused] at there
    cases there
  case placeholder => exact ⟨_, (get?_place slot true _).trans (if_pos rfl), rfl⟩
  case known =>
    intro i t found different _
    rw [other different] at found
    exact found
  case ranked =>
    have bare : ∀ j ∈ (TypeInfo.blank r.reserve.1).parents, rank j < bound := by
      intro j member
      cases member
    refine ⟨_, (ranked.congr same).place coherent slot true fits bound bare, ?_⟩
    intro i t found different _
    rw [other different] at found
    change Function.update rank r.reserve.1 bound i <
      Function.update rank r.reserve.1 bound r.reserve.1
    rw [Function.update_of_ne different, Function.update_self]
    exact above found

theorem Defining.reserve (before : Defining origin id r) : Defining origin id r.reserve.2 := by
  obtain ⟨same, _, arrays, _, _, pending⟩ := reserve_frame r
  obtain ⟨rank, ranked, above⟩ := before.ranked
  constructor
  case coherent => exact before.coherent.reserve
  case grows => exact before.grows.trans (extends_reserve r)
  case chain =>
    rw [pending, arrays]
    exact before.chain
  case nodup =>
    rw [pending]
    exact before.nodup
  case fresh =>
    rw [pending]
    exact before.fresh
  case closed =>
    simp only [same, pending]
    exact before.closed
  case placeholder =>
    simp only [same]
    exact before.placeholder
  case known =>
    simp only [same]
    exact before.known
  case ranked =>
    refine ⟨rank, ranked.congr same, ?_⟩
    simp only [same]
    exact above

theorem Defining.addName (before : Defining origin id r) (found : r.get? i = some t)
    (settled : i ∉ r.pending) :
    Defining origin id { r with names := (t.name, i) :: r.names } :=
  { before with coherent := before.coherent.addName found settled }

/-- Where a new array waits for its name, it is the outermost of those that do. -/
theorem Defining.chain_placeArray {waiting : Bool} (before : Defining origin id r)
    (slot : Reserved r a)
    (absent : r.arrays.lookup c = none) (found : r.get? c = some t) (name : String)
    (waits : waiting = true ↔ c ∈ r.pending) :
    ∃ outer, (r.place (arrayType a c name) waiting).pending = outer.reverse ++ [id] ∧
      ArraysFrom (r.place (arrayType a c name) waiting).arrays id outer := by
  have arrays := lookup_arrays_place (r := r) (t := arrayType a c name) waiting
  have others : ∀ e, e ≠ c → (r.place (arrayType a c name) waiting).arrays.lookup e =
      r.arrays.lookup e := by
    intro e different
    rw [arrays, component?_arrayType, if_neg (by simpa using different.symm)]
  obtain ⟨outer, shape, chain⟩ := before.chain
  cases waiting with
  | false =>
    refine ⟨outer, shape, chain.congr fun d member => others d ?_⟩
    rintro rfl
    exact absurd (waits.mpr (by simpa [shape, or_comm] using member)) Bool.false_ne_true
  | true =>
    have belongs : c ∈ id :: outer := by simpa [shape, or_comm] using waits.mp rfl
    refine ⟨outer ++ [a], ?_, chain.snoc belongs absent ?_ ?_ others⟩
    · simp [place, shape, arrayType, TypeInfo.blank]
    · rw [arrays, if_pos (component?_arrayType a c name)]
      rfl
    · rw [others a (slot.ne_of_live found).symm]
      exact before.coherent.no_array_over_empty slot.empty

/-- A new array waits for its name exactly when its component does. -/
theorem Defining.placeArray {waiting : Bool} (before : Defining origin id r) (slot : Reserved r a)
    (absent : r.arrays.lookup c = none) (found : r.get? c = some t)
    (notVoid : t.primitiveKind? ≠ some .void)
    (name : String) (waits : waiting = true ↔ c ∈ r.pending) :
    Defining origin id (r.place (arrayType a c name) waiting) := by
  have get := get?_place (t := arrayType a c name) slot waiting
  have larger : Extends r (r.place (arrayType a c name) waiting) := extends_place slot waiting
  have pending : ∀ {p}, p ∈ (r.place (arrayType a c name) waiting).pending ↔
      (waiting = true ∧ p = a) ∨ p ∈ r.pending :=
    mem_pending_place
  obtain ⟨rank, ranked, above⟩ := before.ranked
  obtain ⟨rank', placed, kept⟩ := ranked.placeArray before.coherent slot found notVoid name waiting
  obtain ⟨self, selfFound, selfPlain⟩ := before.placeholder
  constructor
  case coherent => exact before.coherent.placeArray slot absent found notVoid name waiting
  case grows => exact before.grows.trans larger
  case chain => exact before.chain_placeArray slot absent found name waits
  case nodup =>
    cases waiting with
    | false => exact before.nodup
    | true =>
      refine List.nodup_cons.mpr ⟨fun member => ?_, before.nodup⟩
      obtain ⟨u, there, _⟩ := before.coherent.pending member
      exact slot.ne_of_live there rfl
  case fresh =>
    intro p member
    rcases pending.mp member with ⟨_, rfl⟩ | old
    · rw [Option.eq_none_iff_forall_ne_some]
      intro u there
      exact slot.ne_of_live (before.grows there) rfl
    · exact before.fresh old
  case closed =>
    intro i u there settled j member waitsFor
    have notNew : i ∉ r.pending := fun old => settled (pending.mpr (Or.inr old))
    rw [get] at there
    split at there
    · next same =>
      cases there
      rw [mentions_arrayType] at member
      rcases pending.mp waitsFor with ⟨isWaiting, _⟩ | old
      · exact settled (pending.mpr (Or.inl ⟨isWaiting, same⟩))
      · rcases List.mem_pair.mp member with rfl | rfl
        · exact before.coherent.object.2 old
        · exact settled (pending.mpr (Or.inl ⟨waits.mpr old, same⟩))
    · obtain ⟨v, mentioned⟩ := (before.coherent.fits there).mentions j member
      rcases pending.mp waitsFor with ⟨_, same⟩ | old
      · exact slot.ne_of_live mentioned same
      · exact before.closed there notNew j member old
  case placeholder => exact ⟨self, larger selfFound, selfPlain⟩
  case known =>
    intro i u there different noArray
    exact before.known (kept there noArray).1 different noArray
  case ranked =>
    refine ⟨rank', placed, ?_⟩
    intro i u there different noArray
    rw [(kept there noArray).2, (kept (larger selfFound) selfPlain).2]
    exact above (kept there noArray).1 different noArray

theorem Defining.arrayOf (before : Defining origin id r) (c : TypeId) :
    Defining origin id (stateAfter (arrayOf c r)) := by
  have outcome := arrayOf_outcome r c
  obtain ⟨same, _, arrays, _, _, pending⟩ := reserve_frame r
  have slot := before.coherent.reserved
  generalize Registry.arrayOf c r = result at outcome
  cases outcome with
  | existing entry => exact before
  | refused absent reason => exact before
  | waiting absent found notVoid waits =>
    exact before.reserve.placeArray slot (arrays ▸ absent) (same c ▸ found) notVoid _
      ⟨fun _ => pending ▸ waits, fun _ => rfl⟩
  | taken absent found settled => exact before.reserve
  | @published ct absent found notVoid settled free =>
    have placed : Defining origin id (r.reserve.2.place (nextArray r c ct) false) :=
      before.reserve.placeArray slot (arrays ▸ absent) (same c ▸ found) notVoid _
        ⟨nofun, fun waits => absurd (pending ▸ waits) settled⟩
    refine placed.addName (i := r.reserve.1) (t := nextArray r c ct) ?_ ?_
    · exact (get?_place slot false _).trans (if_pos rfl)
    · intro waits
      obtain ⟨u, there, _⟩ := before.reserve.coherent.pending waits
      exact slot.ne_of_live there rfl

theorem Defining.resolve (before : Defining origin id r) (resolver : Resolver) :
    Defining origin id (resolver.run r).2 :=
  resolver.keeps (fun _ c between => between.arrayOf c) before

end Interop.Registry
