import Interop.Proofs.Registry.Consistency
import Interop.Proofs.Registry.HopMetric
import Interop.Proofs.Registry.SearchOrder

/-!
What is registered stays as it is. Slots are emptied and filled again by definitions that fail, and
arrays get their names late, but none of this touches a type that has been published or anything
that can be reached from it. So a name keeps its type, a type its descriptor, and every question
about types that are there has the answer it had before.
-/
namespace Interop.Registry

variable {r r' r'' : Registry} {rank : TypeId → Nat} {i : TypeId} {t : TypeInfo} {name : String}

/-- Every name of `r` stands for the same type in `r'`. -/
def KeepsNames (r r' : Registry) : Prop := ∀ ⦃n i⦄, r.named? n = some i → r'.named? n = some i

theorem KeepsNames.refl (r : Registry) : KeepsNames r r := fun _ _ named => named

theorem KeepsNames.trans (first : KeepsNames r r') (second : KeepsNames r' r'') :
    KeepsNames r r'' :=
  fun _ _ named => second (first named)

theorem keepsNames_of_same (same : r'.names = r.names) : KeepsNames r r' := by
  intro n i named
  rwa [named?, same]

theorem keepsNames_reserve (r : Registry) : KeepsNames r r.reserve.2 :=
  keepsNames_of_same (reserve_frame r).2.1

/-- A name that is added was free, so it takes nothing from another type. -/
theorem keepsNames_add (free : r.named? name = none)
    (added : r'.names = (name, i) :: r.names) : KeepsNames r r' := by
  intro n j named
  have different : n ≠ name := by
    rintro rfl
    rw [free] at named
    cases named
  rw [named?, added]
  exact (named?_cons name n i).trans ((if_neg different).trans named)

theorem keepsNames_install (success : r.install t = .ok r') : KeepsNames r r' := by
  obtain ⟨free, rfl⟩ := install_ok success
  exact keepsNames_add free rfl

theorem keepsNames_arrayOf (c : TypeId) (r : Registry) :
    KeepsNames r (stateAfter (arrayOf c r)) := by
  have outcome := arrayOf_outcome r c
  generalize arrayOf c r = result at outcome
  have reserved := keepsNames_reserve r
  cases outcome with
  | existing entry => exact .refl r
  | refused absent reason => exact .refl r
  | waiting absent found notVoid waits => exact reserved
  | taken absent found settled => exact reserved
  | published absent found notVoid settled free =>
    exact keepsNames_add free (congrArg _ (reserve_frame r).2.1)

theorem keepsNames_publishArrays (fuel : Nat) (c : TypeId) (r : Registry) :
    KeepsNames r (publishArrays fuel c r).1 := by
  induction fuel generalizing c r with
  | zero => exact .refl r
  | succ fuel ih =>
    unfold publishArrays
    split
    · exact .refl r
    · next array entry =>
      split
      · change KeepsNames { r with pending := r.pending.filter (fun p => p != array) } _
        dsimp only
        split
        · next installed => exact (keepsNames_install installed).trans (ih _ _)
        · exact ih _ _
      · exact .refl r

theorem keepsNames_completeDefinition (id : TypeId) (draft : TypeDraft) (r : Registry) :
    KeepsNames r (stateAfter (completeDefinition id draft r).1) := by
  have outcome := completion_outcome r id draft
  generalize (completeDefinition id draft r).1 = result at outcome
  cases outcome with
  | released e => exact .refl r
  | published checked free =>
    exact KeepsNames.trans (keepsNames_add free rfl) (keepsNames_publishArrays _ _ _)

theorem keepsNames_defineWith (resolver : TypeId → Resolver) (r : Registry) :
    KeepsNames r (stateAfter (r.defineWith resolver).1) := by
  have begun : KeepsNames r r.beginDefinition.2 := keepsNames_reserve r
  have resolved : KeepsNames r (r.resolved resolver).2 :=
    (resolver _).keeps (fun _ c kept => kept.trans (keepsNames_arrayOf c _)) begun
  exact resolved.trans (keepsNames_completeDefinition _ _ _)

theorem keepsNames_generateSubclass (base : TypeId) (r : Registry) :
    KeepsNames r (stateAfter (r.generateSubclass base).1) := by
  have outcome := generateSubclass_outcome r base
  generalize (r.generateSubclass base).1 = result at outcome
  cases outcome with
  | existing entry => exact .refl r
  | refused e => exact .refl r
  | taken e => exact keepsNames_reserve r
  | made found isClass isOpen free =>
    exact keepsNames_add free (congrArg _ (reserve_frame r).2.1)

theorem keepsNames_generateImplementation (interface : TypeId) (r : Registry) :
    KeepsNames r (stateAfter (r.generateImplementation interface).1) := by
  have outcome := generateImplementation_outcome r interface
  generalize (r.generateImplementation interface).1 = result at outcome
  cases outcome with
  | existing entry => exact .refl r
  | refused e => exact .refl r
  | taken e => exact keepsNames_reserve r
  | made found isInterface free => exact keepsNames_add free (congrArg _ (reserve_frame r).2.1)

theorem keepsNames_apply (operation : Operation) (r : Registry) :
    KeepsNames r (operation.apply r) := by
  cases operation with
  | define draft =>
    simp only [Operation.apply, define_eq]
    split
    · exact .refl r
    · exact keepsNames_defineWith _ r
  | defineWith resolver => exact keepsNames_defineWith resolver r
  | lookup name =>
    exact lookup_keeps (fun _ c kept => kept.trans (keepsNames_arrayOf c _)) name (.refl r)
  | arrayOf component => exact keepsNames_arrayOf component r
  | newArray world component elements =>
    simp only [Operation.apply, newArray_registry]
    exact keepsNames_arrayOf component r
  | generateSubclass base => exact keepsNames_generateSubclass base r
  | generateImplementation interface => exact keepsNames_generateImplementation interface r

theorem arrayName_succ (base : String) (n : Nat) :
    arrayName base (n + 1) = arrayName base n ++ arraySuffix := by
  simp [arrayName, String.join, List.replicate_succ', String.append_assoc]

theorem arrayName_stripBrackets (reversed : List Char) :
    arrayName (String.ofList (stripBrackets reversed).2.reverse) (stripBrackets reversed).1 =
      String.ofList reversed.reverse := by
  fun_induction stripBrackets reversed with
  | case1 rest count base split ih =>
    rw [split] at ih
    rw [arrayName_succ, ih]
    simp [arraySuffix]
  | case2 chars => simp [arrayName]

theorem arrayName_splitArrayName (name : String) :
    arrayName (splitArrayName name).1 (splitArrayName name).2 = name := by
  have joined := arrayName_stripBrackets name.toList.reverse
  rwa [List.reverse_reverse, String.ofList_toList] at joined

/-- A published name is found at once. -/
theorem lookup_of_named (named : r.named? name = some i) : r.lookup name = (some i, r) := by
  have split := arrayName_splitArrayName name
  unfold lookup
  generalize splitArrayName name = parts at split
  obtain ⟨base, dimensions⟩ := parts
  cases dimensions with
  | zero =>
    simp [arrayName] at split
    simp [lookupArray, split, named]
  | succ dimensions => simp [lookupArray, split, named]

/-- From a type that was there the search goes the same way. -/
theorem visit_of_extends (coherent : Coherent r) (larger : Extends r r') (fuel : Nat)
    (seen : List TypeId) (found : r.get? i = some t) :
    r'.visit fuel seen i = r.visit fuel seen i := by
  induction fuel generalizing i t seen with
  | zero => rfl
  | succ fuel ih =>
    simp only [visit, found, larger found]
    -- What a type inherits from was there with it.
    have parents : ∀ j ∈ searchParents t, ∃ u, r.get? j = some u := by
      intro j member
      obtain ⟨u, there, _⟩ := ((mem_searchParents coherent found).mp member).target coherent
      exact ⟨u, there⟩
    congr 1
    generalize seen ++ [i] = start
    generalize searchParents t = rest at parents
    induction rest generalizing start with
    | nil => rfl
    | cons j rest inner =>
      obtain ⟨u, there⟩ := parents j List.mem_cons_self
      rw [List.foldl_cons, List.foldl_cons, ih start there]
      exact inner _ (fun k member => parents k (List.mem_cons_of_mem _ member))

/-- More fuel than the rank of a type makes no difference. -/
theorem visit_of_enough (coherent : Coherent r) (ranked : Ranked r rank)
    (root : ∀ {i}, i ≠ .object → rank .object < rank i) {fuel more : Nat} (seen : List TypeId)
    (enough : ∀ {t}, r.get? i = some t → rank i ≤ fuel) (least : fuel ≤ more) :
    r.visit (more + 1) seen i = r.visit (fuel + 1) seen i := by
  induction fuel using Nat.strong_induction_on generalizing i more seen with
  | _ fuel ih =>
  unfold visit
  cases found : r.get? i with
  | none => rfl
  | some t =>
    dsimp only
    congr 1
    have lower : ∀ k ∈ searchParents t, rank k < rank i :=
      fun k member => ((mem_searchParents coherent found).mp member).lower coherent ranked root
    have bound := enough found
    generalize seen ++ [i] = start
    generalize searchParents t = parents at lower
    induction parents generalizing start with
    | nil => rfl
    | cons k rest inner =>
      have below := lower k List.mem_cons_self
      obtain ⟨fuel, rfl⟩ : ∃ n, fuel = n + 1 := ⟨fuel - 1, by omega⟩
      obtain ⟨more, rfl⟩ : ∃ n, more = n + 1 := ⟨more - 1, by omega⟩
      rw [List.foldl_cons, List.foldl_cons,
        ih fuel (by omega) start (fun _ => by omega) (by omega : fuel ≤ more)]
      exact inner _ (fun k' member => lower k' (List.mem_cons_of_mem _ member))

/-- There are enough slots for the whole search. -/
theorem Settled.visit_eq (settled : Settled r) {fuel : Nat} (enough : r.slots.length ≤ fuel) :
    r.visit (fuel + 1) [] i = r.visit (r.slots.length + 1) [] i := by
  obtain ⟨rank, ranked, root, within⟩ := settled.bounded_rank
  exact visit_of_enough settled.coherent ranked root []
    (fun found => Nat.le_of_lt (within found)) enough

theorem searchOrder_stable (settled : Settled r) (settled' : Settled r') (larger : Extends r r')
    (found : r.get? i = some t) : r'.searchOrder i = r.searchOrder i := by
  have same : r'.visit (r'.slots.length + 1) [] i = r.visit (r.slots.length + 1) [] i := by
    rw [← settled.visit_eq (Nat.le_max_left _ r'.slots.length),
      ← settled'.visit_eq (Nat.le_max_right r.slots.length _)]
    exact visit_of_extends settled.coherent larger _ [] found
  unfold searchOrder
  rw [same]
  apply List.filterMap_congr
  intro j member
  obtain ⟨rank, ranked, root, within⟩ := settled.bounded_rank
  have visited := visit_visited settled.coherent ranked root r.slots.length [] (i := i)
    (fun found => Nat.le_of_lt (within found))
  rcases visited.reached j member with never | ⟨k, start, n, path⟩
  · cases never
  · rw [List.mem_singleton] at start
    subst start
    obtain ⟨_, u, there⟩ := path.restrict settled.coherent (Extends.refl r) found
    rw [there, larger there]

/-- The type is there. -/
def Live (r : Registry) (i : TypeId) : Prop := ∃ t, r.get? i = some t

theorem accepts_stable {v : Value} (settled : Settled r) (settled' : Settled r')
    (larger : Extends r r') (live : Live r i)
    (known : ∀ cls, runtimeType? v = some cls → Live r cls) :
    r'.accepts i v = r.accepts i v := by
  obtain ⟨t, found⟩ := live
  simp only [accepts, found, larger found]
  cases t.primitiveKind? with
  | some kind => rfl
  | none =>
    cases type : runtimeType? v with
    | none => rfl
    | some cls =>
      obtain ⟨u, there⟩ := known cls type
      simp only [isAssignable, hops_stable settled settled' larger there found]

/-- What is registered in `r` is registered in `r'` as it was: names stand for the same types, types
have the same descriptors, and questions about types of `r` have the same answers. -/
structure Permanent (r r' : Registry) : Prop where
  names : ∀ {n i}, r.named? n = some i → r.lookup n = (some i, r) ∧ r'.lookup n = (some i, r')
  types : ∀ {i t}, r.get? i = some t → r'.get? i = some t
  hops : ∀ {i j}, Live r i → Live r j → r'.hops i j = r.hops i j
  isAssignable : ∀ {i j}, Live r i → Live r j → r'.isAssignable i j = r.isAssignable i j
  searchOrder : ∀ {i}, Live r i → r'.searchOrder i = r.searchOrder i
  methods : ∀ {i}, Live r i → r'.methods i = r.methods i
  constructors : ∀ {i}, Live r i → r'.constructors i = r.constructors i
  fields : ∀ {i} name, Live r i → r'.field? i name = r.field? i name
  accepts : ∀ {i v}, Live r i → (∀ cls, runtimeType? v = some cls → Live r cls) →
    r'.accepts i v = r.accepts i v

theorem Settled.permanent (settled : Settled r) (settled' : Settled r') (larger : Extends r r')
    (kept : KeepsNames r r') : Permanent r r' := by
  have hops : ∀ {i j}, Live r i → Live r j → r'.hops i j = r.hops i j := by
    rintro i j ⟨t, found⟩ ⟨u, there⟩
    exact hops_stable settled settled' larger found there
  have order : ∀ {i}, Live r i → r'.searchOrder i = r.searchOrder i := by
    rintro i ⟨t, found⟩
    exact searchOrder_stable settled settled' larger found
  constructor
  case names => exact fun named => ⟨lookup_of_named named, lookup_of_named (kept named)⟩
  case types => exact fun found => larger found
  case hops => exact hops
  case isAssignable =>
    intro i j source target
    rw [Registry.isAssignable, Registry.isAssignable, hops source target]
  case searchOrder => exact order
  case methods =>
    intro i live
    rw [Registry.methods, Registry.methods, allMethods, allMethods, order live]
  case constructors =>
    rintro i ⟨t, found⟩
    rw [Registry.constructors, Registry.constructors, found, larger found]
  case fields =>
    intro i name live
    rw [field?, field?, order live]
  case accepts => exact fun live known => accepts_stable settled settled' larger live known

theorem keepsNames_foldl (operations : List Operation) (r : Registry) :
    KeepsNames r (operations.foldl Operation.apply r) := by
  induction operations generalizing r with
  | nil => exact .refl r
  | cons operation rest ih => exact (keepsNames_apply operation r).trans (ih _)

/-- Nothing that is done later changes what has been registered. -/
theorem registered_types_permanent (operations later : List Operation) :
    Permanent (afterAll operations) (afterAll (operations ++ later)) := by
  have settled := settled_afterAll operations
  have after : afterAll (operations ++ later) =
      later.foldl Operation.apply (afterAll operations) := by
    rw [afterAll, List.foldl_append, ← afterAll]
  obtain ⟨settled', larger⟩ := settled.foldl_apply later
  rw [after]
  exact settled.permanent settled' larger (keepsNames_foldl later _)

end Interop.Registry
