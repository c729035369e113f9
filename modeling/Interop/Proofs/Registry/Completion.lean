import Interop.Proofs.Registry.TwoPhase

/-!
The second phase of a definition. Whether it publishes the type or gives its slots back, it ends in
a settled registry that has all the types the definition began with, and no new class or interface
but, on success, the one that was checked.
-/
namespace Interop.Registry

variable {r r' origin : Registry} {i a c id : TypeId} {t u : TypeInfo} {outer : List TypeId}
  {rank : TypeId → Nat} {draft : TypeDraft}

/-- The slot may be filled with any class or interface that inherits from others only. -/
theorem Defining.refill (before : Defining origin id r) (own : t.id = id)
    (noArray : t.component? = none)
    (notPrimitive : t.isPrimitive = false) (plain : t.generated = false) (fits : Fits (r.fill t) t)
    (supers : ∀ s ∈ t.supers, s ≠ id ∧ ∃ u, r.get? s = some u ∧ u.component? = none) :
    Defining origin id (r.fill t) := by
  subst own
  obtain ⟨u, found, wasPlain⟩ := before.placeholder
  have get := get?_fill (inRange_of_get? found)
  have other : ∀ {j}, j ∉ r.pending → (r.fill t).get? j = r.get? j := by
    intro j settled
    rw [get, if_neg]
    rintro rfl
    exact settled before.waits
  obtain ⟨rank, ranked, above⟩ := before.ranked
  constructor
  case coherent =>
    apply before.coherent.replace found before.waits
      (noArray.trans wasPlain.symm) notPrimitive plain fits
    intro s member
    obtain ⟨different, v, there, noArray⟩ := supers s member
    exact before.settled there different noArray
  case grows =>
    intro j v there
    rw [other]
    · exact before.grows there
    · intro waits
      rw [before.fresh waits] at there
      cases there
  case chain => exact before.chain
  case nodup => exact before.nodup
  case fresh => exact before.fresh
  case closed =>
    intro j v there settled
    rw [other settled] at there
    exact before.closed there settled
  case placeholder => exact ⟨t, (get _).trans (if_pos rfl), noArray⟩
  case known =>
    intro j v there different
    rw [get, if_neg different] at there
    exact before.known there different
  case ranked =>
    refine ⟨rank, ?_, ?_⟩
    · intro j v there k member
      rw [get] at there
      split at there
      · next same =>
        cases there
        rw [TypeInfo.parents, noArray, Option.toList_none, List.append_nil] at member
        obtain ⟨different, w, mentioned, noArray⟩ := supers k member
        rw [same]
        exact above mentioned different noArray
      · exact ranked there k member
    · intro j v there different
      rw [get, if_neg different] at there
      exact above there different

/-- A type that has been checked may take its slot. -/
theorem Defining.fillBuilt (before : Defining origin id r) (built : Built r id t) :
    Defining origin id (r.fill t) ∧ (r.fill t).get? id = some t := by
  obtain ⟨u, there, _⟩ := before.placeholder
  constructor
  · exact before.refill built.own_id built.component? built.isPrimitive built.plain
      (built.fits there) built.supers
  · rw [get?_fill (by rw [built.own_id]; exact inRange_of_get? there), built.own_id, if_pos rfl]

/-- The slots that a failed definition gives back are those that are pending. -/
theorem Defining.detach (before : Defining origin id r) :
    r.pending = (id :: (detachArrays r.arrays.length id r.arrays).1).reverse ∧
      ∀ d, (detachArrays r.arrays.length id r.arrays).2.lookup d =
        if d ∈ r.pending then none else r.arrays.lookup d := by
  obtain ⟨outer, pending, chain⟩ := before.chain
  have reversed : r.pending = (id :: outer).reverse := by rw [pending, List.reverse_cons]
  have nodup : (id :: outer).Nodup := by
    have nodup := before.nodup
    rw [reversed] at nodup
    exact List.nodup_reverse.mp nodup
  obtain ⟨doomed, index⟩ := detachArrays_eq chain nodup (Nat.le_refl r.arrays.length)
  refine ⟨by rw [doomed, reversed], ?_⟩
  intro d
  rw [index, reversed]
  simp only [List.mem_reverse]

theorem Defining.get?_release (before : Defining origin id r) (i : TypeId) :
    (r.release id).get? i = if i ∈ r.pending then none else r.get? i := by
  rw [before.detach.1]
  simp only [Registry.release, get?, emptied_getElem?, List.mem_reverse]

theorem Defining.pending_release (before : Defining origin id r) :
    (r.release id).pending = [] := by
  simp only [Registry.release, List.filter_eq_nil_iff]
  intro p member
  rw [before.detach.1, List.mem_reverse] at member
  simpa only [Bool.not_eq_true', Bool.not_eq_false, List.contains_iff_mem] using member

/-- A failed definition leaves the types that were there when it began, and arrays of them. -/
theorem Defining.release (before : Defining origin id r) :
    Settled (r.release id) ∧ Extends origin (r.release id) ∧
      ∀ {i t}, (r.release id).get? i = some t → t.component? = none → origin.get? i = some t := by
  obtain ⟨reversed, index⟩ := before.detach
  have slots := before.get?_release
  have idle := before.pending_release
  have coherent : Coherent (r.release id) := by
    apply before.coherent.discard before.nodup before.closed before.component_pending slots
    · simp only [Registry.release, emptied_length]
    · exact index
    · simp only [Registry.release, reversed]
    · rfl
    · rfl
    · rfl
    · exact idle
  have kept : ∀ {i t}, (r.release id).get? i = some t → r.get? i = some t ∧ i ∉ r.pending := by
    intro i t found
    rw [slots] at found
    split at found
    · cases found
    · next settled => exact ⟨found, settled⟩
  obtain ⟨rank, ranked, _⟩ := before.ranked
  refine ⟨⟨coherent, ⟨rank, fun i t found => ranked (kept found).1⟩, idle⟩, ?_, ?_⟩
  · intro i t found
    rw [slots, if_neg]
    · exact before.grows found
    · intro waits
      rw [before.fresh waits] at found
      cases found
  · intro i t found noArray
    obtain ⟨there, settled⟩ := kept found
    refine before.known there ?_ noArray
    rintro rfl
    exact settled before.waits

theorem Coherent.settleArray (before : Coherent r) (entry : r.arrays.lookup c = some a) :
    Coherent { r with pending := r.pending.filter (fun p => p != a) } := by
  apply before.settle
  intro p _ done t found isClass
  obtain ⟨u, there, array⟩ := before.arrays.mp entry
  have same : p = a := by simpa using done
  rw [same, there] at found
  cases found
  simp [TypeInfo.isClass, array] at isClass

/-- An array that waits gets its final name. -/
theorem Coherent.nameArray (before : Coherent r) (entry : r.arrays.lookup c = some a)
    (waits : a ∈ r.pending) (name : String) :
    Coherent { { r with pending := r.pending.filter (fun p => p != a) }.fill
      (arrayType a c name) with
      names := (name, a) :: r.names } := by
  obtain ⟨u, found, array⟩ := before.arrays.mp entry
  obtain ⟨ct, component, notVoid⟩ := (before.fits found).component c array
  have get := get?_fill (t := arrayType a c name) (inRange_of_get? found)
  have fits : Fits (r.fill (arrayType a c name)) (arrayType a c name) := by
    apply (fits_arrayType before component notVoid a name).transfer
    · intro j _ v there
      rw [get]
      split
      · exact ⟨_, rfl, nofun⟩
      · exact ⟨v, there, fun void => void⟩
    · intro j member
      rw [supers_arrayType, List.mem_singleton] at member
      rw [get, if_neg]
      rintro same
      rw [member] at same
      exact before.object.2 (same ▸ waits)
  have replaced : Coherent (r.fill (arrayType a c name)) := by
    apply before.replace found waits _ rfl rfl fits
    · intro s member
      rw [supers_arrayType, List.mem_singleton] at member
      rw [member]
      exact before.object.2
    · rw [TypeInfo.component?_eq.mpr array]
      rfl
  have settled := replaced.settleArray entry
  apply settled.addName (i := a) (t := arrayType a c name)
  · exact (get a).trans (if_pos rfl)
  · simp

/-- The name of an array changes nothing about what it is made of. -/
theorem Ranked.fillArray (ranked : Ranked r rank) (before : Coherent r)
    (entry : r.arrays.lookup c = some a)
    (name : String) : Ranked (r.fill (arrayType a c name)) rank := by
  obtain ⟨u, found, array⟩ := before.arrays.mp entry
  intro i t there j member
  rw [get?_fill (t := arrayType a c name) (inRange_of_get? found)] at there
  split at there
  · next same =>
    cases there
    rw [same]
    apply ranked found
    rw [(before.fits found).array_shape c array]
    exact member
  · exact ranked there j member

/-- What is settled first is the innermost of what is pending. -/
theorem pending_without (pending : r.pending = (a :: outer).reverse) (unlike : a ∉ outer) :
    r.pending.filter (fun p => p != a) = outer.reverse := by
  rw [pending, List.reverse_cons, List.filter_append, List.filter_singleton]
  simp only [bne_self_eq_false, cond_false, List.append_nil, List.filter_eq_self, List.mem_reverse]
  intro p member
  simpa using ne_of_mem_of_not_mem member unlike

/-- Going up the arrays over a published type, each stops waiting. -/
theorem publishArrays_settles {fuel : Nat} (coherent : Coherent r) (ranked : Ranked r rank)
    (chain : ArraysFrom r.arrays c outer) (nodup : outer.Nodup)
    (pending : r.pending = outer.reverse) (enough : outer.length ≤ fuel) :
    Coherent (publishArrays fuel c r).1 ∧ Ranked (publishArrays fuel c r).1 rank ∧
      (publishArrays fuel c r).1.pending = [] ∧
        (∀ i ∉ outer, (publishArrays fuel c r).1.get? i = r.get? i) ∧
      ∀ {i t}, (publishArrays fuel c r).1.get? i = some t → t.component? = none →
        r.get? i = some t := by
  induction outer generalizing r c fuel with
  | nil =>
    cases chain with
    | last absent =>
      have unchanged : publishArrays fuel c r = (r, []) := by
        cases fuel with
        | zero => rfl
        | succ fuel => simp [publishArrays, absent]
      rw [unchanged]
      exact ⟨coherent, ranked, pending, fun _ _ => rfl, fun found _ => found⟩
  | cons a outer ih =>
    cases chain with
    | next entry rest =>
      obtain ⟨fuel, rfl⟩ : ∃ n, fuel = n + 1 := ⟨fuel - 1, by simp at enough; omega⟩
      have left : outer.length ≤ fuel := by simpa using enough
      obtain ⟨unlike, inner⟩ := List.nodup_cons.mp nodup
      have waits : a ∈ r.pending := by simp [pending]
      have others := pending_without pending unlike
      simp only [publishArrays, entry, isPending, List.contains_iff_mem, waits, if_true]
      split
      · next r₁ success =>
        obtain ⟨_, rfl⟩ := install_ok success
        obtain ⟨_, there, _⟩ := coherent.arrays.mp entry
        have get : ∀ i, i ≠ a → (r.fill (arrayType a c (r.typeName c ++ arraySuffix))).get? i =
            r.get? i :=
          fun i different => get?_fill_other different
        obtain ⟨c₁, r₁, p₁, kept, known⟩ := ih (coherent.nameArray entry waits _)
          (ranked.fillArray coherent entry _) rest inner others left
        refine ⟨c₁, r₁, p₁, ?_, ?_⟩
        · intro i unaffected
          rw [List.mem_cons, not_or] at unaffected
          exact (kept i unaffected.2).trans (get i unaffected.1)
        · intro i t found noArray
          have found : (r.fill (arrayType a c _)).get? i = some t := known found noArray
          rw [get?_fill (t := arrayType a c _) (inRange_of_get? there)] at found
          split at found
          · cases found
            cases noArray
          · exact found
      · obtain ⟨c₁, r₁, p₁, kept, known⟩ :=
          ih (coherent.settleArray entry) ranked rest inner others left
        refine ⟨c₁, r₁, p₁, ?_, known⟩
        intro i unaffected
        rw [List.mem_cons, not_or] at unaffected
        exact kept i unaffected.2

/-- The arrays over the type under definition, once the type itself is settled. -/
theorem Defining.arrays_left (before : Defining origin id r) :
    ∃ outer, r.pending.filter (fun p => p != id) = outer.reverse ∧ ArraysFrom r.arrays id outer ∧
      outer.Nodup ∧ outer.length ≤ r.pending.length ∧ ∀ p ∈ outer, p ∈ r.pending := by
  obtain ⟨outer, pending, chain⟩ := before.chain
  have nodup := before.nodup
  rw [pending, ← List.reverse_cons, List.nodup_reverse, List.nodup_cons] at nodup
  refine ⟨outer, pending_without (by rw [pending, List.reverse_cons]) nodup.1, chain, nodup.2, ?_⟩
  rw [pending]
  simp +contextual

theorem Defining.coherent_named (before : Defining origin id r) (found : r.get? id = some t)
    (rooted : t.isClass → ∃ s, t.superclass = some s) :
    Coherent { r with
      pending := r.pending.filter (fun p => p != id)
      names := (t.name, id) :: r.names } := by
  have settled : Coherent { r with pending := r.pending.filter (fun p => p != id) } := by
    apply before.coherent.settle
    intro p _ done u there
    have same : p = id := by simpa using done
    rw [same, found] at there
    cases there
    exact rooted
  exact settled.addName (i := id) (t := t) found (by simp)

theorem Defining.publish (before : Defining origin id r) (found : r.get? id = some t)
    (rooted : t.isClass → ∃ s, t.superclass = some s) :
    Settled (settlePending { r with names := (t.name, id) :: r.names } id).1 ∧
      Extends origin (settlePending { r with names := (t.name, id) :: r.names } id).1 ∧
      ∀ {i u}, (settlePending { r with names := (t.name, id) :: r.names } id).1.get? i = some u →
        u.component? = none → r.get? i = some u := by
  obtain ⟨outer, others, chain, nodup, enough, waiting⟩ := before.arrays_left
  obtain ⟨rank, ranked, _⟩ := before.ranked
  obtain ⟨coherent, stillRanked, idle, kept, known⟩ := publishArrays_settles
    (before.coherent_named found rooted) ranked chain nodup others enough
  refine ⟨⟨coherent, ⟨rank, stillRanked⟩, idle⟩, ?_, known⟩
  intro i u there
  refine (kept i ?_).trans (before.grows there)
  intro member
  rw [before.fresh (waiting i member)] at there
  cases there

/-- The slot of the type under definition with the name and the kind of its draft. -/
def withHeader (r : Registry) (id : TypeId) (draft : TypeDraft) : Registry :=
  r.fill { TypeInfo.blank id with
    name := draft.name
    kind := if draft.isInterface then .interface else .cls }

theorem Defining.withHeader (before : Defining origin id r) (draft : TypeDraft) :
    Defining origin id (r.withHeader id draft) := by
  have kind : (if draft.isInterface then TypeKind.interface else .cls) = .cls ∨
      (if draft.isInterface then TypeKind.interface else .cls) = .interface := by
    cases draft.isInterface <;> simp
  refine before.refill rfl ?_ ?_ rfl (fits_placeholder kind _ _ _) nofun
  · rcases kind with kind | kind <;> simp [TypeInfo.component?, kind]
  · rcases kind with kind | kind <;> simp [TypeInfo.isPrimitive, TypeInfo.primitiveKind?, kind]

/-- All that the second phase can do. -/
inductive CompletionOutcome (r : Registry) (id : TypeId) (draft : TypeDraft) :
    EStateM.Result NativeError Registry TypeId → Prop where
  | released (e : NativeError) : CompletionOutcome r id draft
      (.error e ((r.withHeader id draft).release id))
  | published {t : TypeInfo} (checked : (r.withHeader id draft).buildType id draft = .ok t)
      (free : (r.withHeader id draft).named? t.name = none) :
      CompletionOutcome r id draft (.ok id (settlePending
        { (r.withHeader id draft).fill t with names := (t.name, t.id) ::
          (r.withHeader id draft).names } id).1)

theorem completion_outcome (r : Registry) (id : TypeId) (draft : TypeDraft) :
    CompletionOutcome r id draft (completeDefinition id draft r).1 := by
  unfold completeDefinition
  dsimp only
  split
  · exact .released _
  · next t checked =>
    split
    · exact .released _
    · next r₁ installed =>
      obtain ⟨free, rfl⟩ := install_ok installed
      exact .published checked free

/-- What a definition leaves behind: a settled registry with all that was there, and no class or
interface more than the one that was defined, as it was checked. -/
structure Completed (origin r : Registry) (id : TypeId) (draft : TypeDraft) (after : Registry) :
    Prop where
  settled : Settled after
  grows : Extends origin after
  known : ∀ {i t}, after.get? i = some t → t.component? = none →
    origin.get? i = some t ∨ (i = id ∧ (r.withHeader id draft).buildType id draft = .ok t)

theorem Defining.complete (before : Defining origin id r) (draft : TypeDraft) :
    Completed origin r id draft (stateAfter (completeDefinition id draft r).1) := by
  have headed := before.withHeader draft
  have outcome := completion_outcome r id draft
  generalize (completeDefinition id draft r).1 = result at outcome
  cases outcome with
  | released e =>
    obtain ⟨settled, grows, known⟩ := headed.release
    exact ⟨settled, grows, fun found noArray => Or.inl (known found noArray)⟩
  | @published t checked free =>
    have built := buildType_ok headed.coherent checked
    obtain ⟨filled, self⟩ := headed.fillBuilt built
    obtain ⟨settled, grows, known⟩ := filled.publish self built.rooted
    rw [built.own_id]
    refine ⟨settled, grows, ?_⟩
    intro i v found noArray
    have found := known found noArray
    by_cases same : i = id
    · rw [same, self] at found
      cases found
      exact Or.inr ⟨same, checked⟩
    · exact Or.inl (filled.known found same noArray)

end Interop.Registry
