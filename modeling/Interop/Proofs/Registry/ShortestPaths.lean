import Interop.Proofs.Registry.Consistency
import Interop.Proofs.Registry.HopMetric

/-!
Hops are shortest paths. `Way` gives the ways up the graph of supertypes with their lengths, in any
composition: over superclasses, over interfaces, from an interface to the root class, and between
arrays of references as between their components. The hops between two types are the length of a
shortest way, and there are none where there is no way. This holds between operations and also
inside a definition, where a placeholder and arrays over it are in the registry.
-/
namespace Interop.Registry

variable {r : Registry} {rank : TypeId → Nat} {i j a c d : TypeId} {n : Nat}

inductive SuperEdge (r : Registry) : TypeId → TypeId → Prop where
  | superclass {i s : TypeId} {t : TypeInfo} (found : r.get? i = some t)
      (extended : t.superclass = some s) : SuperEdge r i s
  | interface {i s : TypeId} {t : TypeInfo} (found : r.get? i = some t)
      (implemented : s ∈ t.interfaces) : SuperEdge r i s
  | root {i : TypeId} {t : TypeInfo} (found : r.get? i = some t)
      (isInterface : t.isInterface = true) : SuperEdge r i .object

inductive Way (r : Registry) : Nat → TypeId → TypeId → Prop where
  | here (i : TypeId) : Way r 0 i i
  | edge {i j : TypeId} (edge : SuperEdge r i j) : Way r 1 i j
  | array {n : Nat} {a b c d : TypeId} (source : IsReferenceArray r a c)
      (target : IsReferenceArray r b d) (components : Way r n c d) : Way r n a b
  | join {m n : Nat} {i j k : TypeId} (first : Way r m i j) (second : Way r n j k) :
      Way r (m + n) i k

theorem edge_iff_superEdge (coherent : Coherent r) : Edge r i j ↔ SuperEdge r i j := by
  rw [edge_iff coherent]
  constructor
  · rintro ⟨t, found, super | ⟨isInterface, rfl⟩⟩
    · rcases List.mem_append.mp super with extended | implemented
      · exact .superclass found (by simpa using extended)
      · exact .interface found implemented
    · exact .root found isInterface
  · intro edge
    cases edge with
    | superclass found extended => exact ⟨_, found, Or.inl (by simp [TypeInfo.supers, extended])⟩
    | interface found implemented =>
      exact ⟨_, found, Or.inl (List.mem_append_right _ implemented)⟩
    | root found isInterface => exact ⟨_, found, Or.inr ⟨isInterface, rfl⟩⟩

theorem Path.way (path : Path r n i j) (coherent : Coherent r) : Way r n i j := by
  induction path with
  | here i => exact .here i
  | step _ edge ih => exact .join ih (.edge ((edge_iff_superEdge coherent).mp edge))

theorem Ascent.way (ascent : Ascent r n i j) (coherent : Coherent r) : Way r n i j := by
  induction ascent with
  | climb path => exact path.way coherent
  | array source target _ ih => exact .array source target ih

/-- A way is no shorter than some ascent: what it does after an array is either within arrays, or
ends in the root class, which the array reaches at once. -/
theorem Way.ascent (way : Way r n i j) (coherent : Coherent r) :
    ∃ m ≤ n, Ascent r m i j := by
  induction way with
  | here i => exact ⟨0, Nat.le_refl 0, .climb (.here i)⟩
  | edge edge =>
    have one : Path r 1 _ _ := .step (.here _) ((edge_iff_superEdge coherent).mpr edge)
    exact ⟨1, Nat.le_refl 1, .climb one⟩
  | array source target _ ih =>
    obtain ⟨m, short, components⟩ := ih
    exact ⟨m, short, .array source target components⟩
  | join _ _ ih ih' =>
    obtain ⟨m, short, first⟩ := ih
    obtain ⟨n, short', second⟩ := ih'
    obtain ⟨l, shorter, joined⟩ := first.trans coherent second
    exact ⟨l, by omega, joined⟩

theorem isLeast_way_iff (coherent : Coherent r) :
    IsLeast {m | Way r m i j} n ↔ IsLeast {m | Ascent r m i j} n := by
  constructor
  · rintro ⟨way, least⟩
    obtain ⟨m, short, ascent⟩ := way.ascent coherent
    obtain rfl : m = n := Nat.le_antisymm short (least (ascent.way coherent))
    exact ⟨ascent, fun _ other => least (other.way coherent)⟩
  · rintro ⟨ascent, least⟩
    refine ⟨ascent.way coherent, ?_⟩
    intro m way
    obtain ⟨l, short, other⟩ := way.ascent coherent
    exact (least other).trans short

theorem hops_eq_none (coherent : Coherent r) (ranked : Ranked r rank) :
    r.hops i j = none ↔ ¬Below r i j := by
  rw [← hops_isSome coherent ranked, Option.not_isSome_iff_eq_none]

theorem IsReferenceArray.component (array : IsReferenceArray r a d)
    (component : r.component? a = some c) : r.primitiveKind? c = none := by
  obtain ⟨⟨t, found, kind⟩, u, there, reference⟩ := array
  rw [component?, found, Option.bind_some, TypeInfo.component?_eq.mpr kind] at component
  cases component
  simpa [primitiveKind?, there, TypeInfo.isPrimitive] using reference

/-- An array of primitives leads to the root class and nowhere else. -/
theorem Below.of_primitive_array (below : Below r a j) (coherent : Coherent r)
    (array : r.component? a = some c) (primitive : (r.primitiveKind? c).isSome)
    (different : a ≠ j) : j = .object := by
  cases below with
  | refl => exact absurd rfl different
  | climb path =>
    obtain ⟨t, found, component⟩ := Option.bind_eq_some_iff.mp array
    exact path_array coherent found (TypeInfo.component?_eq.mp component) path
  | array source target _ =>
    rw [source.component array] at primitive
    cases primitive

/-- Nothing else leads to an array of primitives. -/
theorem Below.to_primitive_array (below : Below r j a) (coherent : Coherent r)
    (array : r.component? a = some c) (primitive : (r.primitiveKind? c).isSome) : j = a := by
  cases below with
  | refl => rfl
  | climb path =>
    obtain ⟨u, there, _, noArray⟩ := path.ends coherent
    rw [component?, there, Option.bind_some, noArray] at array
    cases array
  | array source target _ =>
    rw [target.component array] at primitive
    cases primitive

/-- Every array is one edge from the root class. -/
theorem isLeast_array_object (coherent : Coherent r) (array : r.component? a = some c) :
    IsLeast {m | Ascent r m a .object} 1 := by
  obtain ⟨t, found, component⟩ := Option.bind_eq_some_iff.mp array
  have notRoot : a ≠ .object := by
    rintro rfl
    rw [coherent.object.1] at found
    cases found
    cases component
  have edge : Edge r a .object :=
    (edge_array coherent found (TypeInfo.component?_eq.mp component)).mpr rfl
  refine ⟨.climb (.step (.here a) edge), ?_⟩
  rintro m ascent
  cases m with
  | succ m => exact Nat.succ_le_succ (Nat.zero_le m)
  | zero =>
    cases ascent with
    | climb path =>
      cases path
      exact absurd rfl notRoot
    | array source target _ =>
      obtain ⟨⟨u, there, kind⟩, _⟩ := target
      rw [coherent.object.1] at there
      cases there
      cases kind

/-- Hops measure the graph of supertypes exactly. -/
structure ShortestHops (r : Registry) : Prop where
  least_iff : ∀ {i j n}, r.hops i j = some n ↔ IsLeast {m | Way r m i j} n
  none_iff : ∀ {i j}, r.hops i j = none ↔ ∀ n, ¬Way r n i j
  /-- A primitive type is related to itself only. -/
  primitive : ∀ {i j t}, r.get? i = some t → t.isPrimitive = true → i ≠ j →
    r.hops i j = none ∧ r.hops j i = none
  /-- An array of primitives is related to itself and to the root class only. -/
  primitive_array : ∀ {a c j}, r.component? a = some c → (r.primitiveKind? c).isSome → a ≠ j →
    r.hops a j = (if j = .object then some 1 else none) ∧ r.hops j a = none

theorem shortestHops_of_ranked (coherent : Coherent r) (ranked : Ranked r rank) :
    ShortestHops r := by
  have least {i j n} : r.hops i j = some n ↔ IsLeast {m | Ascent r m i j} n :=
    hops_least_iff coherent ranked
  have none {i j} : r.hops i j = none ↔ ¬Below r i j := hops_eq_none coherent ranked
  constructor
  case least_iff =>
    intro i j n
    rw [least, isLeast_way_iff coherent]
  case none_iff =>
    intro i j
    rw [none, below_iff_ascent]
    constructor
    · intro unrelated n way
      obtain ⟨m, _, ascent⟩ := way.ascent coherent
      exact unrelated ⟨m, ascent⟩
    · rintro noWay ⟨n, ascent⟩
      exact noWay n (ascent.way coherent)
  case primitive =>
    intro i j t found primitive different
    have unrelated : ∀ {u : TypeInfo}, r.get? i = some u → u.isPrimitive = false → False := by
      intro u there reference
      cases found.symm.trans there
      rw [primitive] at reference
      cases reference
    rw [none, none]
    constructor
    · intro below
      obtain ⟨u, _, there, reference, _⟩ := below.reference coherent different
      exact unrelated there reference
    · intro below
      obtain ⟨_, u, _, _, there, reference⟩ := below.reference coherent different.symm
      exact unrelated there reference
  case primitive_array =>
    intro a c j array primitive different
    constructor
    · split
      · next root =>
        rw [root, least]
        exact isLeast_array_object coherent array
      · next notRoot =>
        rw [none]
        exact fun below => notRoot (below.of_primitive_array coherent array primitive different)
    · rw [none]
      exact fun below => different (below.to_primitive_array coherent array primitive).symm

/-- Whatever has been defined, looked up or generated, hops are lengths of shortest ways, also
inside a definition and whatever references have been resolved there. -/
theorem hops_shortest (operations : List Operation) (resolver : TypeId → Resolver) :
    ShortestHops (afterAll operations) ∧
      ShortestHops ((afterAll operations).resolved resolver).2 := by
  have settled := settled_afterAll operations
  have defining :=
    settled.beginDefinition.resolve (resolver (afterAll operations).beginDefinition.1)
  obtain ⟨rank, ranked⟩ := settled.ranked
  obtain ⟨rank', ranked', _⟩ := defining.ranked
  exact ⟨shortestHops_of_ranked settled.coherent ranked,
    shortestHops_of_ranked defining.coherent ranked'⟩

end Interop.Registry
