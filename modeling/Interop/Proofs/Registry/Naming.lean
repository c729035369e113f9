import Interop.Proofs.Registry.Titles

/-!
Names and types agree: what a look-up finds has the name that was asked for, and every type is found
under its name, but for the arrays that were left without one because it was taken. Brackets after a
name stand for arrays as often as there are brackets. Where no class or interface has a name that
ends in brackets, there is no exception.
-/
namespace Interop.Registry

variable {r r' : Registry} {i a c id : TypeId} {t : TypeInfo} {n name base : String}

theorem length_arrayName (base : String) (n : Nat) :
    (arrayName base n).length = base.length + 2 * n := by
  induction n with
  | zero => simp [arrayName]
  | succ n ih =>
    have two : arraySuffix.length = 2 := rfl
    rw [arrayName_succ, String.length_append, ih, two]
    omega

theorem Settled.published (settled : Settled r) (found : r.get? i = some t) : Published r i t :=
  ⟨found, by simp [settled.idle]⟩

/-- Asking for an array type adds its name at most. -/
theorem named_after_arrayOf (named : (stateAfter (arrayOf c r)).named? n = some i) :
    r.named? n = some i ∨ n = r.typeName c ++ arraySuffix := by
  have outcome := arrayOf_outcome r c
  have names := (reserve_frame r).2.1
  have reserved : r.reserve.2.named? n = some i →
      r.named? n = some i ∨ n = r.typeName c ++ arraySuffix := by
    intro named
    rw [named?, names] at named
    exact Or.inl named
  generalize arrayOf c r = result at outcome named
  cases outcome with
  | existing entry => exact Or.inl named
  | refused absent reason => exact Or.inl named
  | waiting absent found notVoid waits => exact reserved named
  | taken absent found settled => exact reserved named
  | @published ct absent found notVoid settled free =>
    have named := (named?_cons (nextArray r c ct).name n r.reserve.1).symm.trans named
    split at named
    · next same =>
      rw [same, typeName_eq found]
      exact Or.inr rfl
    · exact reserved named

/-- An array type that is not there yet, and whose name another type has. -/
def ArrayNameTaken (r : Registry) (c : TypeId) : Prop :=
  r.arrays.lookup c = none ∧ (r.named? (r.typeName c ++ arraySuffix)).isSome

instance (r : Registry) (c : TypeId) : Decidable (r.ArrayNameTaken c) :=
  inferInstanceAs (Decidable (_ ∧ _))

/-- An array type that is not there is published under its name, or refused with it. -/
theorem arrayOf_of_absent {ct : TypeInfo} (absent : r.arrays.lookup c = none)
    (found : r.get? c = some ct) (notVoid : ct.primitiveKind? ≠ some .void)
    (settled : c ∉ r.pending) :
    (∀ e, r.reserve.2.install (nextArray r c ct) = .error e →
      arrayOf c r = .error e r.reserve.2) ∧
    ∀ r', r.reserve.2.install (nextArray r c ct) = .ok r' →
      arrayOf c r = .ok r.reserve.1 { r' with arrays := (c, r.reserve.1) :: r'.arrays } := by
  have pending : r.reserve.2.isPending c = false := by
    simpa [isPending, (reserve_frame r).2.2.2.2.2] using settled
  unfold arrayOf nextArray
  simp only [absent, require, found, if_neg notVoid, pending, Bool.false_eq_true, if_false]
  constructor
  · intro e failed
    simp only [failed]
  · intro r' installed
    simp only [installed]

theorem name_nextArray {ct : TypeInfo} (found : r.get? c = some ct) :
    (nextArray r c ct).name = r.typeName c ++ arraySuffix := by
  rw [typeName_eq found]
  rfl

theorem named?_nextArray {ct : TypeInfo} (found : r.get? c = some ct) :
    r.reserve.2.named? (nextArray r c ct).name = r.named? (r.typeName c ++ arraySuffix) := by
  rw [named?, (reserve_frame r).2.1, name_nextArray found, named?]

theorem arrayOf_of_nameTaken {ct : TypeInfo} (found : r.get? c = some ct)
    (notVoid : ct.primitiveKind? ≠ some .void) (settled : c ∉ r.pending)
    (taken : r.ArrayNameTaken c) :
    arrayOf c r = .error (.duplicateType (r.typeName c ++ arraySuffix)) r.reserve.2 := by
  obtain ⟨absent, named⟩ := taken
  obtain ⟨other, owner⟩ := Option.isSome_iff_exists.mp named
  rw [← named?_nextArray found] at owner
  rw [← name_nextArray found]
  apply (arrayOf_of_absent absent found notVoid settled).1
  unfold install
  simp only [owner]

theorem arrayOf_of_nameFree {ct : TypeInfo} (found : r.get? c = some ct)
    (notVoid : ct.primitiveKind? ≠ some .void) (settled : c ∉ r.pending)
    (free : ¬r.ArrayNameTaken c) : ∃ a r', arrayOf c r = .ok a r' := by
  cases entry : r.arrays.lookup c with
  | some a => exact ⟨a, r, arrayOf_existing entry⟩
  | none =>
    have unnamed : r.reserve.2.named? (nextArray r c ct).name = none := by
      rw [named?_nextArray found]
      simpa [ArrayNameTaken, entry] using free
    cases installed : r.reserve.2.install (nextArray r c ct) with
    | ok r' => exact ⟨_, _, (arrayOf_of_absent entry found notVoid settled).2 r' installed⟩
    | error e => simp [install, unnamed] at installed

/-- An array type is given under the name of its component with brackets, unless that name stands
for another type. -/
theorem named_of_arrayOf (settled : Settled r) (titled : Titled r) (named : r.named? n = some c)
    (made : arrayOf c r = .ok a r') :
    r'.named? (n ++ arraySuffix) = some a ∨ ∃ j, r.named? (n ++ arraySuffix) = some j := by
  obtain ⟨u, component, name⟩ := settled.coherent.names named
  have typeName : r.typeName c = n := (typeName_eq component).trans name
  have outcome := arrayOf_outcome r c
  rw [made] at outcome
  cases outcome with
  | existing entry =>
    obtain ⟨t, found, array⟩ := settled.coherent.arrays.mp entry
    have inner : r.component? a = some c :=
      (component?_of_get? found).trans (TypeInfo.component?_eq.mpr array)
    rcases titled.named (settled.published found) with title | ⟨d, j, other, title, _⟩
    · rw [titled.arrays title inner, typeName] at title
      exact Or.inl title
    · rw [inner] at other
      cases other
      rw [typeName] at title
      exact Or.inr ⟨j, title⟩
  | waiting absent found notVoid waits =>
    rw [settled.idle] at waits
    cases waits
  | @published ct absent found notVoid settled free =>
    rw [component] at found
    cases found
    refine Or.inl ((named?_cons _ _ _).trans (if_pos ?_))
    rw [← name]
    rfl

theorem arrayName_ne {m k : Nat} (less : m < k) : arrayName base k ≠ arrayName base m := by
  intro same
  have lengths := congrArg String.length same
  rw [length_arrayName, length_arrayName] at lengths
  omega

/-- What a look-up finds is published under that very name, and a look-up adds no other names than
those of the arrays that it goes through. -/
theorem lookupArray_named (base : String) (dimensions : Nat) (settled : Settled r)
    (titled : Titled r) :
    (∀ i, (lookupArray base dimensions r).1 = some i →
      (lookupArray base dimensions r).2.named? (arrayName base dimensions) = some i) ∧
    ∀ n i, (lookupArray base dimensions r).2.named? n = some i →
      r.named? n = some i ∨ ∃ m ≤ dimensions, n = arrayName base m := by
  have asked : ∀ r' c, Settled r' ∧ Titled r' → Settled (stateAfter (arrayOf c r')) ∧
      Titled (stateAfter (arrayOf c r')) :=
    fun r' c between => ⟨between.1.arrayOf c, between.2.arrayOf between.1.coherent c⟩
  induction dimensions with
  | zero =>
    have whole : arrayName base 0 = base := by simp [arrayName]
    rw [whole]
    exact ⟨fun i named => named, fun n i named => Or.inl named⟩
  | succ k ih =>
    have between := lookupArray_keeps asked base k ⟨settled, titled⟩
    unfold lookupArray
    split
    · next id named =>
      refine ⟨?_, fun n i named => Or.inl named⟩
      intro i found
      cases found
      exact named
    · next free =>
      generalize lookupArray base k r = inner at ih between
      obtain ⟨found, r₁⟩ := inner
      obtain ⟨here, added⟩ := ih
      obtain ⟨settled₁, titled₁⟩ := between
      have earlier : ∀ n i, r₁.named? n = some i →
          r.named? n = some i ∨ ∃ m ≤ k + 1, n = arrayName base m := by
        intro n i named
        refine (added n i named).imp_right ?_
        rintro ⟨m, less, same⟩
        exact ⟨m, by omega, same⟩
      cases found with
      | none =>
        refine ⟨?_, earlier⟩
        intro i found
        cases found
      | some c =>
        have component := here c rfl
        obtain ⟨u, there, name⟩ := settled₁.coherent.names component
        have asked : ∀ n i, (stateAfter (arrayOf c r₁)).named? n = some i →
            r.named? n = some i ∨ ∃ m ≤ k + 1, n = arrayName base m := by
          intro n i named
          rcases named_after_arrayOf named with old | new
          · exact earlier n i old
          · rw [typeName_eq there, name, ← arrayName_succ] at new
            exact Or.inr ⟨k + 1, Nat.le_refl _, new⟩
        dsimp only
        cases made : arrayOf c r₁ with
        | error e r₂ =>
          rw [made] at asked
          refine ⟨?_, asked⟩
          intro i found
          cases found
        | ok a r₂ =>
          rw [made] at asked
          refine ⟨?_, asked⟩
          intro i found
          cases found
          have given := named_of_arrayOf settled₁ titled₁ component made
          rw [← arrayName_succ] at given
          refine given.resolve_right ?_
          rintro ⟨j, taken⟩
          rcases added _ j taken with old | ⟨m, less, same⟩
          · rw [free] at old
            cases old
          · exact arrayName_ne (by omega) same

/-- A look-up answers with the type that is published under the name. -/
theorem named_of_lookup (settled : Settled r) (titled : Titled r)
    (found : (r.lookup name).1 = some i) : (r.lookup name).2.named? name = some i := by
  have here := (lookupArray_named (splitArrayName name).1 (splitArrayName name).2 settled titled).1
  rw [arrayName_splitArrayName] at here
  exact here i found

theorem splitArrayName_arrayName (name : String) (k : Nat) :
    splitArrayName (arrayName name k) = ((splitArrayName name).1, (splitArrayName name).2 + k) := by
  induction k with
  | zero => simp [arrayName]
  | succ k ih =>
    have reversed : (arrayName name k ++ arraySuffix).toList.reverse =
        ']' :: '[' :: (arrayName name k).toList.reverse := by
      simp [arraySuffix]
    unfold splitArrayName at ih ⊢
    rw [arrayName_succ, reversed, stripBrackets]
    rw [Prod.mk.injEq] at ih
    simp only [ih.1, ih.2, Nat.add_assoc]

/-- Asks for the array type of a type, for the array type of that, and so on. -/
def nestedArray : Nat → TypeId → EStateM NativeError Registry TypeId
  | 0, id => pure id
  | k + 1, id => do
    let component ← nestedArray k id
    arrayOf component

/-- What a look-up makes of an answer. -/
def answered : EStateM.Result NativeError Registry TypeId → Option TypeId × Registry
  | .ok id r => (some id, r)
  | .error _ r => (none, r)

/-- A name with up to `k` pairs of brackets stands for an array of what it stands for with one pair
less, or for nothing. -/
def Unclaimed (r : Registry) (name : String) (k : Nat) : Prop :=
  ∀ m < k, ∀ j, r.named? (arrayName name (m + 1)) = some j →
    ∃ c, r.named? (arrayName name m) = some c ∧ r.component? j = some c

theorem nestedArray_succ (k : Nat) (id : TypeId) (r : Registry) :
    nestedArray (k + 1) id r =
      match nestedArray k id r with
      | .ok c r => arrayOf c r
      | .error e r => .error e r := by
  change EStateM.bind (nestedArray k id) arrayOf r = _
  unfold EStateM.bind
  cases nestedArray k id r <;> rfl

theorem lookup_arrayName {k : Nat} (coherent : Coherent r) (named : r.named? name = some id)
    (own : Unclaimed r name k) :
    r.lookup (arrayName name k) = answered (nestedArray k id r) := by
  induction k with
  | zero =>
    have whole : arrayName name 0 = name := by simp [arrayName]
    rw [whole, lookup_of_named named]
    rfl
  | succ k ih =>
    have inner := ih fun m less => own m (by omega)
    rw [nestedArray_succ]
    cases title : r.named? (arrayName name (k + 1)) with
    | some j =>
      obtain ⟨c, component, array⟩ := own k (by omega) j title
      rw [lookup_of_named component] at inner
      rw [lookup_of_named title]
      cases nested : nestedArray k id r with
      | error e r₁ =>
        rw [nested] at inner
        cases inner
      | ok d r₁ =>
        rw [nested] at inner
        cases inner
        obtain ⟨t, found, kind⟩ := Option.bind_eq_some_iff.mp array
        have entry := coherent.arrays.mpr ⟨t, found, TypeInfo.component?_eq.mp kind⟩
        dsimp only
        rw [arrayOf_existing entry]
        rfl
    | none =>
      have split := splitArrayName_arrayName name
      have joined : ∀ m, arrayName (splitArrayName name).1 ((splitArrayName name).2 + m) =
          arrayName name m := by
        intro m
        have whole := arrayName_splitArrayName (arrayName name m)
        rwa [split] at whole
      rw [lookup, split] at inner ⊢
      change lookupArray _ ((splitArrayName name).2 + k + 1) r = _
      change lookupArray _ ((splitArrayName name).2 + k) r = _ at inner
      rw [lookupArray, Nat.add_assoc, joined, title, inner]
      cases nestedArray k id r with
      | error e r₁ => rfl
      | ok c r₁ =>
        cases added : arrayOf c r₁ <;> simp only [answered, added]

/-- A look-up and the name of a type agree. -/
structure NamesAgree (r : Registry) : Prop where
  /-- What is found under a name has this name. -/
  of_name : ∀ {name i}, (r.lookup name).1 = some i → (r.lookup name).2.typeName i = name
  /-- A type is found under its name, except for arrays whose name stands for another type. -/
  of_id : ∀ {i}, Live r i → ((r.lookup (r.typeName i)).1 = some i ↔ ¬Displaced r i)
  /-- There are no such arrays where no class or interface has a name that ends in brackets. -/
  plain : PlainlyNamed r → ∀ {i}, Live r i → (r.lookup (r.typeName i)).1 = some i
  /-- A name with brackets is found by asking for array types as often. -/
  nested : ∀ {name id k}, r.named? name = some id → Unclaimed r name k →
    r.lookup (arrayName name k) = answered (nestedArray k id r)

theorem names_and_ids_agree (operations : List Operation) : NamesAgree (afterAll operations) := by
  have settled := settled_afterAll operations
  have titled := titled_afterAll operations
  generalize afterAll operations = r at settled titled
  have found : ∀ {i t}, r.named? t.name = some i → r.get? i = some t →
      (r.lookup (r.typeName i)).1 = some i := by
    intro i t named there
    rw [typeName_eq there, lookup_of_named named]
  constructor
  case of_name =>
    intro name i found
    have named := named_of_lookup settled titled found
    have after := (settled.apply (.lookup name)).1
    obtain ⟨t, there, same⟩ := after.coherent.names named
    exact (typeName_eq there).trans same
  case of_id =>
    rintro i ⟨t, there⟩
    constructor
    · rintro looked ⟨c, j, array, title, different⟩
      -- The name under which it is found is that of its component with brackets.
      have named := named_of_lookup settled titled looked
      have after : Titled (r.lookup (r.typeName i)).2 := titled.apply settled (.lookup _)
      have larger : Extends r (r.lookup (r.typeName i)).2 := (settled.apply (.lookup _)).2
      have kept : KeepsNames r (r.lookup (r.typeName i)).2 := keepsNames_apply (.lookup _) r
      have inner := (component?_of_get? there).symm.trans array
      obtain ⟨u, component⟩ := titled.components (settled.published there) inner
      have own := after.arrays named ((component?_of_get? (larger there)).trans inner)
      rw [typeName_eq (larger component.1), ← typeName_eq component.1] at own
      rw [← own] at title
      exact different (Option.some.inj ((kept title).symm.trans named))
    · intro notDisplaced
      exact found ((titled.named (settled.published there)).resolve_right notDisplaced) there
  case plain =>
    rintro plain i ⟨t, there⟩
    exact found (titled.plain plain (settled.published there)) there
  case nested => exact fun named own => lookup_arrayName settled.coherent named own

/-- A class without members. -/
def bareDraft (name : String) : TypeDraft where
  name := name
  isInterface := false
  modifiers := .plain
  superclass := none
  interfaces := []
  methods := []
  constructors := []
  fields := []

/-- A class whose name ends in brackets, and a class with the name before them, of which an array is
asked for while it is being defined. -/
def bracketedOperations : List Operation := [
  .define (bareDraft "t.X[]"),
  .defineWith fun this => .arrayOf this fun _ => .done (bareDraft "t.X")]

/-- The array of the second class is not found under its name, and under the name of that class with
brackets another type is found. -/
theorem array_name_taken :
    (answered (nestedArray 1 ⟨21⟩ (afterAll bracketedOperations))).1 = some ⟨22⟩ ∧
      (lookup "t.X" (afterAll bracketedOperations)).1 = some ⟨21⟩ ∧
      (lookup (arrayName "t.X" 1) (afterAll bracketedOperations)).1 = some ⟨20⟩ ∧
      typeName (afterAll bracketedOperations) ⟨22⟩ = "[]" ∧
      (lookup "[]" (afterAll bracketedOperations)).1 = none := by
  decide +kernel

end Interop.Registry
