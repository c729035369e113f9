import Mathlib.Order.Bounds.Basic
import Interop.Proofs.Registry.Ranks

/-!
Subtyping as a relation. `Below` has a rule for each way in which a type can stand for another: it
is the same, it leads there over supertype edges, or both are arrays of references whose components
are so related. The search over classes and interfaces is breadth first: `Frontier` says how far it
has come, and each turn keeps that, so what is found is the length of a shortest path. In a settled
registry the search decides exactly this relation, which is transitive and kept when types are
added.
-/
namespace Interop.Registry

variable {r r' : Registry} {rank : TypeId → Nat} {i j k a c d : TypeId} {t u : TypeInfo}
  {n m : Nat}

/-- One supertype edge. -/
def Edge (r : Registry) (i j : TypeId) : Prop := j ∈ r.directSupertypes i

/-- A number of supertype edges, one after the other. -/
inductive Path (r : Registry) : Nat → TypeId → TypeId → Prop where
  | here (i : TypeId) : Path r 0 i i
  | step {n : Nat} {i j k : TypeId} (path : Path r n i j) (edge : Edge r j k) : Path r (n + 1) i k

theorem Path.trans (first : Path r n i j) (second : Path r m j k) : Path r (n + m) i k := by
  induction second with
  | here => exact first
  | step _ edge ih => exact .step (ih first) edge

theorem Path.first (path : Path r (n + 1) i j) : ∃ k, Edge r i k ∧ Path r n k j := by
  induction n generalizing j with
  | zero =>
    cases path with
    | step start edge =>
      cases start
      exact ⟨j, edge, .here j⟩
  | succ n ih =>
    cases path with
    | step path last =>
      obtain ⟨k, edge, rest⟩ := ih path
      exact ⟨k, edge, .step rest last⟩

theorem edge_iff (coherent : Coherent r) :
    Edge r i j ↔ ∃ t, r.get? i = some t ∧
      (j ∈ t.supers ∨ (t.isInterface = true ∧ j = .object)) := by
  unfold Edge directSupertypes
  cases found : r.get? i with
  | none => simp
  | some t =>
    have alone := (coherent.fits found).interface_alone
    cases superclass : t.superclass with
    | none =>
      cases kind : t.kind <;>
      simp [TypeInfo.supers, TypeInfo.isInterface, superclass, kind, or_comm]
    | some s =>
      have notInterface : t.isInterface = false := by
        rw [← Bool.not_eq_true]
        intro isInterface
        rw [alone isInterface] at superclass
        cases superclass
      simp [TypeInfo.supers, superclass, notInterface, eq_comm (a := j)]

theorem primitive_supers (member : t ∈ primitiveTypes) : t.supers = [] ∧ t.isInterface = false := by
  have all : primitiveTypes.all (fun t => t.supers.isEmpty && !t.isInterface) = true := by decide
  simpa using List.all_eq_true.mp all t member

/-- Primitive types inherit from nothing. -/
theorem Edge.source (edge : Edge r i j) (coherent : Coherent r) :
    ∃ t, r.get? i = some t ∧ t.isPrimitive = false := by
  obtain ⟨t, found, reason⟩ := (edge_iff coherent).mp edge
  refine ⟨t, found, ?_⟩
  rw [← Bool.not_eq_true]
  intro primitive
  obtain ⟨noSupers, notInterface⟩ :=
    primitive_supers ((coherent.fits found).primitive_first primitive)
  rcases reason with super | ⟨isInterface, _⟩
  · rw [noSupers] at super
    cases super
  · rw [notInterface] at isInterface
    cases isInterface

/-- What is inherited from is a class or an interface. -/
theorem Edge.target (edge : Edge r i j) (coherent : Coherent r) :
    ∃ u, r.get? j = some u ∧ u.isPrimitive = false ∧ u.component? = none := by
  have plain : ∀ {u : TypeInfo}, u.isClass = true ∨ u.isInterface = true → u.isPrimitive = false ∧
      u.component? = none := by
    intro u classOrInterface
    cases kind : u.kind <;>
      simp_all [TypeInfo.isClass, TypeInfo.isInterface, TypeInfo.isPrimitive,
        TypeInfo.primitiveKind?, TypeInfo.component?]
  obtain ⟨t, found, reason⟩ := (edge_iff coherent).mp edge
  have fits := coherent.fits found
  rcases reason with super | ⟨_, rfl⟩
  · rcases List.mem_append.mp super with superclass | interface
    · obtain ⟨u, there, isClass, _⟩ := fits.superclass j (Option.mem_toList.mp superclass)
      exact ⟨u, there, plain (Or.inl isClass)⟩
    · obtain ⟨u, there, isInterface⟩ := fits.interfaces j interface
      exact ⟨u, there, plain (Or.inr isInterface)⟩
  · exact ⟨_, coherent.object.1, rfl, rfl⟩

theorem Edge.lower (edge : Edge r i j) (coherent : Coherent r) (ranked : Ranked r rank)
    (root : ∀ {i}, i ≠ .object → rank .object < rank i) : rank j < rank i := by
  obtain ⟨t, found, reason⟩ := (edge_iff coherent).mp edge
  rcases reason with super | ⟨isInterface, rfl⟩
  · exact ranked found j (List.mem_append_left _ super)
  · apply root
    rintro rfl
    rw [coherent.object.1] at found
    cases found
    cases isInterface

/-- A path is no longer than the rank of its start. -/
theorem Path.bounded (path : Path r n i j) (coherent : Coherent r) (ranked : Ranked r rank)
    (root : ∀ {i}, i ≠ .object → rank .object < rank i) : n + rank j ≤ rank i := by
  induction path with
  | here => omega
  | step path edge ih =>
    have lower := edge.lower coherent ranked root
    omega

/-- The edges of a type stay as they are when types are added. -/
theorem Edge.mono (edge : Edge r i j) (larger : Extends r r') : Edge r' i j := by
  unfold Edge directSupertypes at edge ⊢
  split at edge
  · cases edge
  · next found =>
    rw [larger found]
    exact edge

theorem Path.mono (path : Path r n i j) (larger : Extends r r') : Path r' n i j := by
  induction path with
  | here i => exact .here i
  | step _ edge ih => exact .step ih (edge.mono larger)

/-- A type that was there before leads to what it led to before only. -/
theorem Path.restrict (path : Path r' n i j) (coherent : Coherent r) (larger : Extends r r')
    (found : r.get? i = some t) : Path r n i j ∧ ∃ u, r.get? j = some u := by
  induction path with
  | here i => exact ⟨.here i, t, found⟩
  | @step n i j k path edge ih =>
    obtain ⟨before, v, there⟩ := ih found
    have kept : Edge r j k := by
      unfold Edge directSupertypes at edge ⊢
      rw [larger there] at edge
      rw [there]
      exact edge
    obtain ⟨u, live, _⟩ := kept.target coherent
    exact ⟨.step before kept, u, live⟩

theorem mem_unseen {seen types : List TypeId} :
    k ∈ unseen seen types ↔ k ∈ types ∧ k ∉ seen := by
  fun_induction unseen seen types with
  | case1 => simp
  | case2 seen type types known ih =>
    rw [List.contains_iff_mem] at known
    grind
  | case3 seen type types new ih =>
    rw [List.contains_iff_mem] at new
    grind

theorem nodup_unseen (seen types : List TypeId) : (unseen seen types).Nodup := by
  fun_induction unseen seen types with
  | case1 => exact .nil
  | case2 seen type types known ih => exact ih
  | case3 seen type types new ih =>
    refine List.nodup_cons.mpr ⟨?_, ih⟩
    simp [mem_unseen]

/-- How far a search from `i` to `j` has come. The queue holds the types that are still to be looked
at, nearest first, each with its distance; the distances differ by one at most. The other types
that have been seen lead to types that have been seen, and not to `j`. -/
structure Frontier (r : Registry) (i j : TypeId) (queue : List (TypeId × Nat))
    (seen : List TypeId) : Prop where
  start : i ∈ seen
  least : ∀ entry ∈ queue, IsLeast {n | Path r n i entry.1} entry.2
  ordered : queue.Pairwise (fun entry later => entry.2 ≤ later.2)
  near : ∀ entry ∈ queue, ∀ other ∈ queue, other.2 ≤ entry.2 + 1
  passed : ∀ k ∈ seen, k ∈ queue.map Prod.fst ∨ ∀ s, Edge r k s → s ∈ seen ∧ s ≠ j

variable {queue : List (TypeId × Nat)} {seen : List TypeId} {depth : Nat}

theorem frontier_start (r : Registry) (i j : TypeId) : Frontier r i j [(i, 0)] [i] where
  start := List.mem_singleton_self i
  least := by
    simp only [List.mem_singleton, forall_eq]
    exact ⟨.here i, fun n _ => Nat.zero_le n⟩
  ordered := List.pairwise_singleton _ _
  near := by simp
  passed := by simp

/-- A type that has been seen and is nearer than the first of the queue is no longer queued. -/
theorem Frontier.passed_nearer (frontier : Frontier r i j ((a, depth) :: queue) seen)
    (known : k ∈ seen) (path : Path r n i k) (shorter : n < depth) :
    ∀ s, Edge r k s → s ∈ seen ∧ s ≠ j := by
  apply (frontier.passed k known).resolve_left
  intro queued
  obtain ⟨entry, listed, rfl⟩ := List.mem_map.mp queued
  have nearest : entry.2 ≤ n := (frontier.least entry listed).2 path
  have behind : depth ≤ entry.2 := by
    rcases List.mem_cons.mp listed with rfl | later
    · exact Nat.le_refl _
    · exact (List.pairwise_cons.mp frontier.ordered).1 entry later
  omega

/-- All that is nearer than the first of the queue has been seen and passed. -/
theorem Frontier.nearer (frontier : Frontier r i j ((a, depth) :: queue) seen)
    (path : Path r n i k) (shorter : n < depth) : ∀ s, Edge r k s → s ∈ seen ∧ s ≠ j := by
  induction path with
  | here i => exact frontier.passed_nearer frontier.start (.here i) shorter
  | step path edge ih =>
    have known := (ih frontier (by omega) _ edge).1
    exact frontier.passed_nearer known (.step path edge) shorter

/-- An unseen supertype of the first of the queue is one edge further away. -/
theorem Frontier.least_unseen (frontier : Frontier r i j ((a, depth) :: queue) seen)
    (edge : Edge r a k) (new : k ∉ seen) : IsLeast {n | Path r n i k} (depth + 1) := by
  have reached : Path r depth i a := (frontier.least (a, depth) List.mem_cons_self).1
  refine ⟨Path.step reached edge, ?_⟩
  intro n path
  by_contra shorter
  cases path with
  | here => exact new frontier.start
  | step path last => exact new (frontier.nearer path (by omega) _ last).1

/-- One turn of the search. -/
theorem Frontier.turn (frontier : Frontier r i j ((a, depth) :: queue) seen)
    (notFound : ¬Edge r a j) :
    Frontier r i j
      (queue ++ (unseen seen (r.directSupertypes a)).map (fun type => (type, depth + 1)))
      (seen ++ unseen seen (r.directSupertypes a)) := by
  obtain ⟨behind, ordered⟩ := List.pairwise_cons.mp frontier.ordered
  have ahead : ∀ entry ∈ queue, entry.2 ≤ depth + 1 := fun entry listed =>
    frontier.near (a, depth) List.mem_cons_self entry (List.mem_cons_of_mem _ listed)
  -- Entries that stay are at the depth of the first or one further, and those that come are one
  -- further.
  have window : ∀ entry ∈ queue ++
      (unseen seen (r.directSupertypes a)).map (fun type => (type, depth + 1)),
      depth ≤ entry.2 ∧ entry.2 ≤ depth + 1 := by
    simp only [List.mem_append, List.mem_map]
    rintro entry (stays | ⟨type, _, rfl⟩)
    · exact ⟨behind entry stays, ahead entry stays⟩
    · simp
  constructor
  case start => exact List.mem_append_left _ frontier.start
  case least =>
    simp only [List.mem_append, List.mem_map]
    rintro entry (stays | ⟨type, comes, rfl⟩)
    · exact frontier.least entry (List.mem_cons_of_mem _ stays)
    · obtain ⟨edge, new⟩ := mem_unseen.mp comes
      exact frontier.least_unseen edge new
  case ordered =>
    rw [List.pairwise_append]
    refine ⟨ordered, ?_, ?_⟩
    · rw [List.pairwise_map]
      exact List.pairwise_of_forall fun _ _ => Nat.le_refl _
    · simp only [List.mem_map]
      rintro entry stays _ ⟨type, _, rfl⟩
      exact ahead entry stays
  case near =>
    intro entry listed other listed'
    have := window entry listed
    have := window other listed'
    omega
  case passed =>
    intro k known
    rw [List.map_append, List.mem_append, List.map_map]
    rcases List.mem_append.mp known with before | comes
    · rcases frontier.passed k before with queued | passed
      · rcases List.mem_cons.mp queued with rfl | stays
        · right
          intro s edge
          have notTarget : s ≠ j := by
            rintro rfl
            exact notFound edge
          refine ⟨?_, notTarget⟩
          rw [List.mem_append, mem_unseen]
          by_cases old : s ∈ seen
          · exact Or.inl old
          · exact Or.inr ⟨edge, old⟩
        · exact Or.inl (Or.inl stays)
      · right
        intro s edge
        exact ⟨List.mem_append_left _ (passed s edge).1, (passed s edge).2⟩
    · left
      right
      simpa using comes

/-- What the search finds is the length of a shortest path. -/
theorem search_least {fuel : Nat} (frontier : Frontier r i j queue seen)
    (found : r.search j fuel queue seen = some m) : IsLeast {n | 0 < n ∧ Path r n i j} m := by
  fun_induction search r j fuel queue seen with
  | case1 => cases found
  | case2 => cases found
  | case3 fuel a depth queue seen supertypes contained =>
    cases found
    have edge : Edge r a j := List.contains_iff_mem.mp contained
    have reached : Path r depth i a := (frontier.least (a, depth) List.mem_cons_self).1
    refine ⟨⟨Nat.succ_pos depth, .step reached edge⟩, ?_⟩
    rintro n ⟨positive, path⟩
    by_contra shorter
    cases path with
    | here => exact absurd positive (Nat.lt_irrefl 0)
    | step path last => exact (frontier.nearer path (by omega) _ last).2 rfl
  | case4 fuel a depth queue seen supertypes missing found' ih =>
    have notFound : ¬Edge r a j := fun edge => missing (List.contains_iff_mem.mpr edge)
    exact ih (frontier.turn notFound) found

/-- With nothing left in the queue, all that can be reached has been passed. -/
theorem Frontier.exhausted (frontier : Frontier r i j [] seen) (n : Nat) :
    ¬Path r (n + 1) i j := by
  have closed : ∀ k ∈ seen, ∀ s, Edge r k s → s ∈ seen ∧ s ≠ j :=
    fun k known => (frontier.passed k known).resolve_left List.not_mem_nil
  have known : ∀ {n k}, Path r n i k → k ∈ seen := by
    intro n k path
    induction n generalizing k with
    | zero =>
      cases path
      exact frontier.start
    | succ n ih =>
      cases path with
      | step path edge => exact (closed _ (ih path) _ edge).1
  intro path
  cases path with
  | step path edge => exact (closed _ (known path) _ edge).2 rfl

/-- No more types have been seen than there are slots. -/
theorem length_le_slots (nodup : seen.Nodup) (live : ∀ k ∈ seen, ∃ t, r.get? k = some t) :
    seen.length ≤ r.slots.length := by
  have indices : (seen.map TypeId.index).Nodup :=
    nodup.map (fun _ _ same => TypeId.eq_of_index same)
  have within : seen.map TypeId.index ⊆ List.range r.slots.length := by
    intro n member
    obtain ⟨k, listed, rfl⟩ := List.mem_map.mp member
    obtain ⟨t, found⟩ := live k listed
    exact List.mem_range.mpr (inRange_of_get? found)
  simpa using (List.subperm_of_subset indices within).length_le

/-- A search that finds nothing has looked at all that can be reached. Every turn takes one type
off the queue and no type comes twice, so the fuel lasts until the queue is empty. -/
theorem no_path_of_search {fuel : Nat} (coherent : Coherent r)
    (frontier : Frontier r i j queue seen) (nodup : seen.Nodup)
    (live : ∀ k ∈ seen, ∃ t, r.get? k = some t)
    (enough : r.slots.length + queue.length ≤ fuel + seen.length)
    (nothing : r.search j fuel queue seen = none) : ∀ n, ¬Path r (n + 1) i j := by
  fun_induction search r j fuel queue seen with
  | case1 queue seen =>
    have few := length_le_slots nodup live
    obtain rfl : queue = [] := List.eq_nil_of_length_eq_zero (by omega)
    exact frontier.exhausted
  | case2 => exact frontier.exhausted
  | case3 => cases nothing
  | case4 fuel a depth queue seen supertypes missing found' ih =>
    have notFound : ¬Edge r a j := fun edge => missing (List.contains_iff_mem.mpr edge)
    apply ih (frontier.turn notFound) _ _ _ nothing
    · exact nodup.append (nodup_unseen _ _) (by
        intro k before comes
        exact (mem_unseen.mp comes).2 before)
    · intro k known
      rcases List.mem_append.mp known with before | comes
      · exact live k before
      · obtain ⟨t, there, _⟩ := Edge.target (mem_unseen.mp comes).1 coherent
        exact ⟨t, there⟩
    · simp only [List.length_append, List.length_map, List.length_cons] at enough ⊢
      omega

theorem climbHops_least (found : r.climbHops i j = some m) :
    IsLeast {n | 0 < n ∧ Path r n i j} m :=
  search_least (frontier_start r i j) found

/-- In a coherent registry the search goes far enough. -/
theorem climbHops_isSome (coherent : Coherent r) :
    (r.climbHops i j).isSome ↔ ∃ n, Path r (n + 1) i j := by
  cases found : r.climbHops i j with
  | some m =>
    obtain ⟨⟨positive, path⟩, _⟩ := climbHops_least found
    obtain ⟨n, rfl⟩ : ∃ n, m = n + 1 := ⟨m - 1, by omega⟩
    simpa using ⟨n, path⟩
  | none =>
    simp only [Option.isSome_none, Bool.false_eq_true, false_iff]
    rintro ⟨n, path⟩
    obtain ⟨_, edge, _⟩ := path.first
    obtain ⟨t, live, _⟩ := edge.source coherent
    refine no_path_of_search coherent (frontier_start r i j) (List.nodup_singleton i) ?_ ?_ found n
      path
    · simpa using ⟨t, live⟩
    · simp

/-- An array type whose elements are references to `c`. -/
def IsReferenceArray (r : Registry) (a c : TypeId) : Prop :=
  (∃ t, r.get? a = some t ∧ t.kind = .array c) ∧ ∃ u, r.get? c = some u ∧ u.isPrimitive = false

inductive Below (r : Registry) : TypeId → TypeId → Prop where
  | refl (i : TypeId) : Below r i i
  | climb {n : Nat} {i j : TypeId} (path : Path r (n + 1) i j) : Below r i j
  | array {a b c d : TypeId} (source : IsReferenceArray r a c) (target : IsReferenceArray r b d)
      (components : Below r c d) : Below r a b

theorem below_of_path (path : Path r n i j) : Below r i j := by
  cases n with
  | zero =>
    cases path
    exact .refl i
  | succ n => exact .climb path

theorem IsReferenceArray.mono (array : IsReferenceArray r i j) (larger : Extends r r') :
    IsReferenceArray r' i j := by
  obtain ⟨⟨t, found, kind⟩, u, there, reference⟩ := array
  exact ⟨⟨t, larger found, kind⟩, u, larger there, reference⟩

theorem Below.mono (below : Below r i j) (larger : Extends r r') : Below r' i j := by
  induction below with
  | refl i => exact .refl i
  | climb path => exact .climb (path.mono larger)
  | array source target _ ih => exact .array (source.mono larger) (target.mono larger) ih

theorem Path.ends (path : Path r (n + 1) i j) (coherent : Coherent r) :
    ∃ u, r.get? j = some u ∧ u.isPrimitive = false ∧ u.component? = none := by
  cases path with
  | step _ edge => exact edge.target coherent

/-- An array type inherits from the root class and nothing else. -/
theorem edge_array (coherent : Coherent r) (found : r.get? i = some t) (array : t.kind = .array k) :
    Edge r i j ↔ j = .object := by
  have shape := (coherent.fits found).array_shape k array
  rw [edge_iff coherent]
  constructor
  · rintro ⟨u, there, reason⟩
    rw [found] at there
    cases there
    rcases reason with super | ⟨_, same⟩
    · rw [shape] at super
      exact List.mem_singleton.mp super
    · exact same
  · rintro rfl
    refine ⟨t, found, Or.inl ?_⟩
    rw [shape]
    exact List.mem_singleton_self _

theorem object_no_edge (coherent : Coherent r) : ¬Edge r .object j := by
  intro edge
  obtain ⟨t, found, reason⟩ := (edge_iff coherent).mp edge
  rw [coherent.object.1] at found
  cases found
  rcases reason with super | ⟨isInterface, _⟩
  · cases super
  · cases isInterface

theorem path_array (coherent : Coherent r) (found : r.get? i = some t) (array : t.kind = .array k)
    (path : Path r (n + 1) i j) : j = .object := by
  induction n generalizing j with
  | zero =>
    cases path with
    | step path edge =>
      cases path
      exact (edge_array coherent found array).mp edge
  | succ n ih =>
    cases path with
    | step path edge =>
      -- The step before already ended in the root class, which inherits from nothing.
      have root := ih path
      subst root
      exact absurd edge (object_no_edge coherent)

theorem IsReferenceArray.unique (array : IsReferenceArray r a c) (same : IsReferenceArray r a d) :
    c = d := by
  obtain ⟨⟨t, found, kind⟩, _⟩ := array
  obtain ⟨⟨u, there, kind'⟩, _⟩ := same
  rw [found] at there
  cases there
  rw [kind] at kind'
  cases kind'
  rfl

/-- A path that goes anywhere does not end in an array. -/
theorem Path.not_array (path : Path r (n + 1) i j) (coherent : Coherent r) :
    ¬IsReferenceArray r j c := by
  rintro ⟨⟨t, found, array⟩, _⟩
  obtain ⟨u, there, _, noArray⟩ := path.ends coherent
  rw [found] at there
  cases there
  rw [TypeInfo.component?_eq.mpr array] at noArray
  cases noArray

/-- From an array a path goes to the root class, in one step. -/
theorem IsReferenceArray.to_object (array : IsReferenceArray r a c) (coherent : Coherent r) :
    Path r 1 a .object := by
  obtain ⟨⟨t, found, kind⟩, _⟩ := array
  exact .step (.here a) ((edge_array coherent found kind).mpr rfl)

theorem IsReferenceArray.only_object (array : IsReferenceArray r a c) (coherent : Coherent r)
    (path : Path r (n + 1) a j) : j = .object := by
  obtain ⟨⟨t, found, kind⟩, _⟩ := array
  exact path_array coherent found kind path

theorem Below.trans (coherent : Coherent r) (first : Below r i j) (second : Below r j k) :
    Below r i k := by
  induction first generalizing k with
  | refl i => exact second
  | @climb n i j path =>
    cases second with
    | refl => exact .climb path
    | @climb m _ _ further => exact .climb (n := n + 1 + m) (path.trans further)
    | array source _ _ => exact absurd source (path.not_array coherent)
  | @array a b c d source target _ ih =>
    cases second with
    | refl => exact .array source target ‹_›
    | climb further =>
      cases target.only_object coherent further
      exact .climb (source.to_object coherent)
    | array source' target' components =>
      cases target.unique source'
      exact .array source target' (ih components)

/-- A bound on the nesting that is above the rank of the source decides the relation. -/
theorem hopsWithin_isSome (coherent : Coherent r) (ranked : Ranked r rank) (depth : Nat)
    (enough : ∀ {t}, r.get? i = some t → rank i ≤ depth) :
    (r.hopsWithin (depth + 1) i j).isSome ↔ Below r i j := by
  induction depth using Nat.strong_induction_on generalizing i j with
  | _ depth ih =>
  unfold hopsWithin
  by_cases same : i = j
  · subst same
    simpa using Below.refl i
  · rw [if_neg same]
    constructor
    · intro decided
      split at decided
      · next t u found there =>
        split at decided
        · cases decided
        · split at decided
          · next c d component component' =>
            have array := TypeInfo.component?_eq.mp component
            have array' := TypeInfo.component?_eq.mp component'
            split at decided
            · next ct dt source target =>
              split at decided
              · cases decided
              · next reference =>
                simp only [Bool.or_eq_true, not_or, Bool.not_eq_true] at reference
                refine .array ⟨⟨t, found, array⟩, ct, source, reference.1⟩ ⟨⟨u, there, array'⟩, dt,
                  target, reference.2⟩ ?_
                have lower : rank c < rank i :=
                  ranked found c (by simp [TypeInfo.parents, component])
                have bound := enough found
                obtain ⟨depth, rfl⟩ : ∃ n, depth = n + 1 := ⟨depth - 1, by omega⟩
                exact (ih depth (by omega) (fun _ => by omega)).mp decided
            · cases decided
          · obtain ⟨n, path⟩ := (climbHops_isSome coherent).mp decided
            exact .climb path
      · cases decided
    · intro below
      cases below with
      | refl => exact absurd rfl same
      | climb path =>
        obtain ⟨_, edge, _⟩ := path.first
        obtain ⟨t, found, reference⟩ := edge.source coherent
        obtain ⟨u, there, reference', noArray⟩ := path.ends coherent
        have searched := (climbHops_isSome coherent).mpr ⟨_, path⟩
        simp only [found, there, reference, reference', noArray, Bool.or_self, Bool.false_eq_true,
          if_false]
        cases t.component? <;> exact searched
      | @array _ _ c d source target components =>
        obtain ⟨⟨t, found, array⟩, ct, source, reference⟩ := source
        obtain ⟨⟨u, there, array'⟩, dt, target, reference'⟩ := target
        have component := TypeInfo.component?_eq.mpr array
        have component' := TypeInfo.component?_eq.mpr array'
        have notPrimitive : ∀ {t : TypeInfo} {c}, t.kind = .array c → t.isPrimitive = false := by
          intro t c array
          simp [TypeInfo.isPrimitive, TypeInfo.primitiveKind?, array]
        simp only [found, there, notPrimitive array, notPrimitive array', component, component',
          source, target,
          reference, reference', Bool.or_self, Bool.false_eq_true, if_false]
        have lower : rank c < rank i := ranked found c (by simp [TypeInfo.parents, component])
        have bound := enough found
        obtain ⟨depth, rfl⟩ : ∃ n, depth = n + 1 := ⟨depth - 1, by omega⟩
        exact (ih depth (by omega) (fun _ => by omega)).mpr components

/-- Ranks can be taken below the number of slots, which is the bound on the nesting. -/
theorem hops_isSome (coherent : Coherent r) (ranked : Ranked r rank) :
    (r.hops i j).isSome ↔ Below r i j := by
  obtain ⟨bounded, within⟩ := ranked.bounded coherent
  exact hopsWithin_isSome coherent bounded r.slots.length (fun found => Nat.le_of_lt (within found))

/-- Assignability is subtyping. -/
theorem isAssignable_iff (settled : Settled r) : r.isAssignable i j = true ↔ Below r i j := by
  obtain ⟨rank, ranked⟩ := settled.ranked
  exact hops_isSome settled.coherent ranked

/-- What a slot of a type takes: a primitive of its own kind, or null or an instance. -/
def Takes (r : Registry) (t : TypeInfo) (v : Value) : Prop :=
  match t.primitiveKind? with
  | some kind => v.primitiveKind? = some kind
  | none => v = .null ∨ ∃ a, runtimeType? v = some a ∧ Below r a t.id

theorem accepts_iff {v : Value} (settled : Settled r) :
    r.accepts i v = true ↔ ∃ t, r.get? i = some t ∧ Takes r t v := by
  unfold accepts Takes
  cases found : r.get? i with
  | none => simp
  | some t =>
    simp only [Option.some.injEq, exists_eq_left', settled.coherent.ids found]
    cases t.primitiveKind? with
    | some kind => simp
    | none =>
      cases type : runtimeType? v with
      | none => cases v <;> simp [Value.isNull]
      | some a =>
        have notNull : v ≠ .null := by
          rintro rfl
          cases type
        simp [isAssignable_iff settled, notNull]

theorem Takes.mono {v : Value} (takes : Takes r t v) (larger : Extends r r') : Takes r' t v := by
  unfold Takes at takes ⊢
  split
  · next kind => simpa only [kind] using takes
  · next kind =>
    simp only [kind] at takes
    rcases takes with null | ⟨a, type, below⟩
    · exact Or.inl null
    · exact Or.inr ⟨a, type, below.mono larger⟩

theorem accepts_mono {v : Value} (settled : Settled r) (settled' : Settled r')
    (larger : Extends r r') (accepted : r.accepts i v = true) : r'.accepts i v = true := by
  obtain ⟨t, found, takes⟩ := (accepts_iff settled).mp accepted
  exact (accepts_iff settled').mpr ⟨t, larger found, takes.mono larger⟩

/-- Primitive types stand for themselves only. -/
theorem Below.reference (below : Below r i j) (coherent : Coherent r) (different : i ≠ j) :
    ∃ t u, r.get? i = some t ∧ t.isPrimitive = false ∧ r.get? j = some u ∧
      u.isPrimitive = false := by
  cases below with
  | refl => exact absurd rfl different
  | climb path =>
    obtain ⟨_, edge, _⟩ := path.first
    obtain ⟨t, found, reference⟩ := edge.source coherent
    obtain ⟨u, there, reference', _⟩ := path.ends coherent
    exact ⟨t, u, found, reference, there, reference'⟩
  | array source target _ =>
    obtain ⟨⟨t, found, array⟩, _⟩ := source
    obtain ⟨⟨u, there, array'⟩, _⟩ := target
    refine ⟨t, u, found, ?_, there, ?_⟩
    · simp [TypeInfo.isPrimitive, TypeInfo.primitiveKind?, array]
    · simp [TypeInfo.isPrimitive, TypeInfo.primitiveKind?, array']

/-- A supertype takes all that a type takes. -/
theorem accepts_of_below {v : Value} (settled : Settled r) (below : Below r i j)
    (accepted : r.accepts i v = true) : r.accepts j v = true := by
  by_cases same : i = j
  · exact same ▸ accepted
  · obtain ⟨t, u, found, reference, there, reference'⟩ := below.reference settled.coherent same
    have noKind : ∀ {t : TypeInfo}, t.isPrimitive = false → t.primitiveKind? = none := by
      intro t reference
      simpa [TypeInfo.isPrimitive] using reference
    obtain ⟨t', found', takes⟩ := (accepts_iff settled).mp accepted
    rw [found] at found'
    cases found'
    refine (accepts_iff settled).mpr ⟨u, there, ?_⟩
    simp only [Takes, noKind reference, settled.coherent.ids found] at takes
    simp only [Takes, noKind reference', settled.coherent.ids there]
    rcases takes with null | ⟨a, type, lower⟩
    · exact Or.inl null
    · exact Or.inr ⟨a, type, lower.trans settled.coherent below⟩

end Interop.Registry
