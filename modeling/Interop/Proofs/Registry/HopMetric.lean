import Mathlib.Order.Bounds.Basic
import Interop.Proofs.Registry.Subtypes

/-!
Hops as a measure of subtyping. `Ascent` is subtyping with the number of supertype edges that it
takes; between arrays these are the edges between their components. The hops of two types are the
least such number. They obey the triangle inequality, and between types that are there they stay
what they are when types are added. Subtyping is antisymmetric, and every reference type is below
the root class.
-/
namespace Interop.Registry

variable {r r' : Registry} {rank : TypeId → Nat} {i j k a c d : TypeId} {t u : TypeInfo}
  {n m depth : Nat}

inductive Ascent (r : Registry) : Nat → TypeId → TypeId → Prop where
  | climb {n : Nat} {i j : TypeId} (path : Path r n i j) : Ascent r n i j
  | array {n : Nat} {a b c d : TypeId} (source : IsReferenceArray r a c)
      (target : IsReferenceArray r b d) (components : Ascent r n c d) : Ascent r n a b

theorem below_iff_ascent : Below r i j ↔ ∃ n, Ascent r n i j := by
  constructor
  · intro below
    induction below with
    | refl i => exact ⟨0, .climb (.here i)⟩
    | climb path => exact ⟨_, .climb path⟩
    | array source target _ ih =>
      obtain ⟨n, components⟩ := ih
      exact ⟨n, .array source target components⟩
  · rintro ⟨n, ascent⟩
    induction ascent with
    | climb path => exact below_of_path path
    | array source target _ ih => exact .array source target ih

/-- What lies above an array is the array, the root class, or an array of what lies above its
component. -/
theorem Ascent.trans (coherent : Coherent r) (first : Ascent r m i j) (second : Ascent r n j k) :
    ∃ l ≤ m + n, Ascent r l i k := by
  induction first generalizing n k with
  | @climb i j path =>
    cases second with
    | climb further => exact ⟨m + n, Nat.le_refl _, .climb (path.trans further)⟩
    | array source target components =>
      -- No edge leads to an array, so the path is empty.
      cases m with
      | zero =>
        cases path
        exact ⟨n, by omega, .array source target components⟩
      | succ m => exact absurd source (path.not_array coherent)
  | @array a b c d source target components ih =>
    cases second with
    | climb further =>
      cases n with
      | zero =>
        cases further
        exact ⟨m, by omega, .array source target components⟩
      | succ n =>
        cases target.only_object coherent further
        exact ⟨1, by omega, .climb (source.to_object coherent)⟩
    | array source' target' components' =>
      cases target.unique source'
      obtain ⟨l, short, joined⟩ := ih components'
      exact ⟨l, short, .array source target' joined⟩

/-- Two arrays are as far apart as their components. -/
theorem Ascent.components (ascent : Ascent r n i j) (coherent : Coherent r)
    (source : IsReferenceArray r i c) (target : IsReferenceArray r j d) (different : i ≠ j) :
    Ascent r n c d := by
  cases ascent with
  | climb path =>
    cases path with
    | here => exact absurd rfl different
    | step path edge => exact absurd target ((Path.step path edge).not_array coherent)
  | array source' target' components =>
    cases source.unique source'
    cases target.unique target'
    exact components

/-- Types that are not both arrays are related by a path. -/
theorem Ascent.path (ascent : Ascent r n i j)
    (notArrays : ∀ c d, IsReferenceArray r i c → ¬IsReferenceArray r j d) : Path r n i j := by
  cases ascent with
  | climb path => exact path
  | array source target _ => exact absurd target (notArrays _ _ source)

theorem hopsWithin_least (coherent : Coherent r) (found : r.hopsWithin depth i j = some n) :
    IsLeast {m | Ascent r m i j} n := by
  induction depth generalizing i j with
  | zero => cases found
  | succ depth ih =>
    unfold hopsWithin at found
    split at found
    · next same =>
      cases found
      subst same
      exact ⟨.climb (.here i), fun m _ => Nat.zero_le m⟩
    · next different =>
      split at found
      · next t u source target =>
        split at found
        · cases found
        · split at found
          · next c d component component' =>
            split at found
            · next ct dt inner inner' =>
              split at found
              · cases found
              · next references =>
                simp only [Bool.or_eq_true, not_or, Bool.not_eq_true] at references
                have array : IsReferenceArray r i c :=
                  ⟨⟨t, source, TypeInfo.component?_eq.mp component⟩, ct, inner, references.1⟩
                have array' : IsReferenceArray r j d :=
                  ⟨⟨u, target, TypeInfo.component?_eq.mp component'⟩, dt, inner', references.2⟩
                obtain ⟨ascent, least⟩ := ih found
                refine ⟨.array array array' ascent, ?_⟩
                intro m other
                exact least (other.components coherent array array' different)
            · cases found
          · next notArrays =>
            obtain ⟨⟨_, path⟩, least⟩ := climbHops_least found
            refine ⟨.climb path, ?_⟩
            intro m other
            have path' : Path r m i j := by
              apply other.path
              rintro c d ⟨⟨t', source', array⟩, _⟩ ⟨⟨u', target', array'⟩, _⟩
              rw [source] at source'
              rw [target] at target'
              cases source'
              cases target'
              exact notArrays c d (TypeInfo.component?_eq.mpr array)
                (TypeInfo.component?_eq.mpr array')
            have positive : 0 < m := by
              cases path' with
              | here => exact absurd rfl different
              | step => omega
            exact least ⟨positive, path'⟩
      · cases found

theorem hops_least_iff (coherent : Coherent r) (ranked : Ranked r rank) :
    r.hops i j = some n ↔ IsLeast {m | Ascent r m i j} n := by
  constructor
  · exact hopsWithin_least coherent
  · intro least
    have related := (hops_isSome coherent ranked).mpr (below_iff_ascent.mpr ⟨n, least.1⟩)
    obtain ⟨m, found⟩ := Option.isSome_iff_exists.mp related
    rw [found, (hopsWithin_least coherent found).unique least]

theorem hops_eq_some (settled : Settled r) :
    r.hops i j = some n ↔ IsLeast {m | Ascent r m i j} n := by
  obtain ⟨rank, ranked⟩ := settled.ranked
  exact hops_least_iff settled.coherent ranked

theorem hops_triangle (settled : Settled r) (first : r.hops i j = some m)
    (second : r.hops j k = some n) : ∃ l, r.hops i k = some l ∧ l ≤ m + n := by
  obtain ⟨up, _⟩ := (hops_eq_some settled).mp first
  obtain ⟨further, _⟩ := (hops_eq_some settled).mp second
  obtain ⟨l, short, ascent⟩ := up.trans settled.coherent further
  have assignable := (isAssignable_iff settled).mpr (below_iff_ascent.mpr ⟨l, ascent⟩)
  obtain ⟨least, found⟩ := Option.isSome_iff_exists.mp assignable
  exact ⟨least, found, (((hops_eq_some settled).mp found).2 ascent).trans short⟩

theorem Ascent.mono (ascent : Ascent r n i j) (larger : Extends r r') : Ascent r' n i j := by
  induction ascent with
  | climb path => exact .climb (path.mono larger)
  | array source target _ ih => exact .array (source.mono larger) (target.mono larger) ih

/-- An array that was there before was one of the same references. -/
theorem IsReferenceArray.restrict (array : IsReferenceArray r' a c) (coherent : Coherent r)
    (larger : Extends r r') (found : r.get? a = some t) : IsReferenceArray r a c := by
  obtain ⟨⟨t', found', kind⟩, u', there', reference⟩ := array
  rw [larger found] at found'
  cases found'
  obtain ⟨_, there, _⟩ := (coherent.fits found).component c kind
  rw [larger there] at there'
  cases there'
  exact ⟨⟨t, found, kind⟩, _, there, reference⟩

theorem Ascent.restrict (ascent : Ascent r' n i j) (coherent : Coherent r) (larger : Extends r r')
    (found : r.get? i = some t) (there : r.get? j = some u) : Ascent r n i j := by
  induction ascent generalizing t u with
  | climb path => exact .climb (path.restrict coherent larger found).1
  | array source target _ ih =>
    have before := source.restrict coherent larger found
    have before' := target.restrict coherent larger there
    obtain ⟨_, inner, _⟩ := before.2
    obtain ⟨_, inner', _⟩ := before'.2
    exact .array before before' (ih inner inner')

/-- Hops between types that were there before are what they were. -/
theorem hops_stable (settled : Settled r) (settled' : Settled r') (larger : Extends r r')
    (found : r.get? i = some t) (there : r.get? j = some u) : r'.hops i j = r.hops i j := by
  have same : {m | Ascent r' m i j} = {m | Ascent r m i j} := by
    ext m
    constructor
    · exact fun ascent => ascent.restrict settled.coherent larger found there
    · exact fun ascent => ascent.mono larger
  apply Option.ext
  intro n
  rw [hops_eq_some settled', hops_eq_some settled, same]

theorem Below.antisymm (settled : Settled r) (up : Below r i j) (down : Below r j i) : i = j := by
  have coherent := settled.coherent
  obtain ⟨rank, ranked, root, _⟩ := settled.bounded_rank
  induction up with
  | refl i => rfl
  | climb path =>
    cases down with
    | refl => rfl
    | climb back =>
      -- Ranks fall along both paths.
      have lower := path.bounded coherent ranked root
      have higher := back.bounded coherent ranked root
      omega
    | array source target components => exact absurd source (path.not_array coherent)
  | array source target _ ih =>
    cases down with
    | refl => rfl
    | climb back => exact absurd source (back.not_array coherent)
    | array source' target' components =>
      cases target.unique source'
      cases source.unique target'
      cases ih components
      obtain ⟨⟨t, found, kind⟩, _⟩ := source
      obtain ⟨⟨u, there, kind'⟩, _⟩ := target
      -- A component has one array type.
      have entry := coherent.arrays.mpr ⟨t, found, kind⟩
      rw [coherent.arrays.mpr ⟨u, there, kind'⟩] at entry
      exact (Option.some.inj entry).symm

/-- Every reference type leads to the root class: a class over its superclasses, an interface and an
array at once. -/
theorem Settled.below_object (settled : Settled r) (found : r.get? i = some t)
    (reference : t.isPrimitive = false) : Below r i .object := by
  have coherent := settled.coherent
  obtain ⟨rank, ranked⟩ := settled.ranked
  induction lower : rank i using Nat.strong_induction_on generalizing i t with
  | _ height ih =>
  have upward : ∀ {s}, Edge r i s → Below r i s := fun edge => .climb (.step (.here i) edge)
  cases kind : t.kind with
  | primitive kind' => simp [TypeInfo.isPrimitive, TypeInfo.primitiveKind?, kind] at reference
  | interface =>
    have isInterface : t.isInterface = true := by simp [TypeInfo.isInterface, kind]
    exact upward ((edge_iff coherent).mpr ⟨t, found, Or.inr ⟨isInterface, rfl⟩⟩)
  | array c => exact upward ((edge_array coherent found kind).mpr rfl)
  | cls =>
    by_cases isRoot : i = .object
    · rw [isRoot]
      exact .refl _
    · have settledHere : i ∉ r.pending := by simp [settled.idle]
      obtain ⟨s, extended⟩ :=
        coherent.rooted found settledHere (by simp [TypeInfo.isClass, kind]) isRoot
      have super : s ∈ t.supers := by simp [TypeInfo.supers, extended]
      have edge : Edge r i s := (edge_iff coherent).mpr ⟨t, found, Or.inl super⟩
      obtain ⟨_, there, reference', _⟩ := edge.target coherent
      have below : rank s < height := lower ▸ ranked found s (List.mem_append_left _ super)
      exact (upward edge).trans coherent (ih _ below there reference' rfl)

end Interop.Registry
