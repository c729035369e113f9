import Interop.Proofs.Registry.Subtypes
import Interop.Registry.Members

/-!
The member search visits exactly the supertypes: the depth-first search for members and the level
search for subtyping agree on what a type inherits from. What is said here of methods and fields is
read off the list of visited types.
-/
namespace Interop.Registry

variable {r r' : Registry} {rank : TypeId → Nat} {i j : TypeId} {t : TypeInfo} {n : Nat}
  {seen between starts rest out : List TypeId}

theorem mem_searchParents (coherent : Coherent r) (found : r.get? i = some t) :
    j ∈ searchParents t ↔ Edge r i j := by
  rw [edge_iff coherent, searchParents, ← TypeInfo.supers, List.mem_append]
  cases isInterface : t.isInterface <;> simp [found, isInterface]

/-- What visiting types one after the other comes to. -/
structure Visited (r : Registry) (seen starts out : List TypeId) : Prop where
  kept : seen ⊆ out
  started : starts ⊆ out
  reached : ∀ j ∈ out, j ∈ seen ∨ ∃ i ∈ starts, ∃ n, Path r n i j
  closed : ∀ j ∈ out, j ∉ seen → ∀ k, Edge r j k → k ∈ out

theorem Visited.append (first : Visited r seen [i] between) (second : Visited r between rest out) :
    Visited r seen (i :: rest) out where
  kept := fun _ member => second.kept (first.kept member)
  started := List.cons_subset.mpr ⟨second.kept (first.started List.mem_cons_self), second.started⟩
  reached j member := by
    rcases second.reached j member with before | ⟨k, start, n, path⟩
    · rcases first.reached j before with already | ⟨k, start, n, path⟩
      · exact Or.inl already
      · rw [List.mem_singleton] at start
        subst start
        exact Or.inr ⟨_, List.mem_cons_self, n, path⟩
    · exact Or.inr ⟨k, List.mem_cons_of_mem _ start, n, path⟩
  closed j member new k edge := by
    by_cases before : j ∈ between
    · exact second.kept (first.closed j before new k edge)
    · exact second.closed j member before k edge

/-- Visiting a type after having noted it, and then all it inherits from, is visiting it. -/
theorem Visited.enter (coherent : Coherent r) (found : r.get? i = some t)
    (parents : Visited r (seen ++ [i]) (searchParents t) out) : Visited r seen [i] out where
  kept := fun _ member => parents.kept (List.mem_append_left _ member)
  started := by
    intro k start
    exact parents.kept (List.mem_append_right _ start)
  reached j member := by
    rcases parents.reached j member with before | ⟨k, start, n, path⟩
    · rcases List.mem_append.mp before with already | same
      · exact Or.inl already
      · rw [List.mem_singleton] at same
        exact Or.inr ⟨i, List.mem_singleton_self i, 0, by rw [same]; exact .here i⟩
    · have edge := (mem_searchParents coherent found).mp start
      exact Or.inr ⟨i, List.mem_singleton_self i, _, (Path.step (.here i) edge).trans path⟩
  closed j member new k edge := by
    by_cases same : j = i
    · subst same
      exact parents.started ((mem_searchParents coherent found).mpr edge)
    · exact parents.closed j member (by simp [new, same]) k edge

/-- Visits one after the other come to what each of them comes to. -/
theorem foldl_visited {fuel : Nat} (starts : List TypeId) (seen : List TypeId)
    (each : ∀ k ∈ starts, ∀ seen, Visited r seen [k] (r.visit fuel seen k)) :
    Visited r seen starts (starts.foldl (r.visit fuel) seen) := by
  induction starts generalizing seen with
  | nil => exact ⟨fun _ member => member, List.nil_subset _, fun j member => Or.inl member,
      fun j member new => absurd member new⟩
  | cons k rest ih =>
    rw [List.foldl_cons]
    exact (each k List.mem_cons_self seen).append
      (ih _ fun k' member => each k' (List.mem_cons_of_mem _ member))

theorem visit_visited (coherent : Coherent r) (ranked : Ranked r rank)
    (root : ∀ {i}, i ≠ .object → rank .object < rank i) (fuel : Nat) (seen : List TypeId)
    (enough : ∀ {t}, r.get? i = some t → rank i ≤ fuel) :
    Visited r seen [i] (r.visit (fuel + 1) seen i) := by
  induction fuel using Nat.strong_induction_on generalizing i seen with
  | _ fuel ih =>
  unfold visit
  split
  · next already =>
    rw [List.contains_iff_mem] at already
    exact ⟨fun _ member => member, List.cons_subset.mpr ⟨already, List.nil_subset _⟩,
      fun j member => Or.inl member, fun j member new => absurd member new⟩
  · split
    · next missing =>
      refine ⟨fun _ member => List.mem_append_left _ member, by simp, ?_, ?_⟩
      · intro j member
        rcases List.mem_append.mp member with already | same
        · exact Or.inl already
        · rw [List.mem_singleton] at same
          exact Or.inr ⟨i, List.mem_singleton_self i, 0, by rw [same]; exact .here i⟩
      · intro j member new k edge
        have same : j = i := by simpa [new] using member
        obtain ⟨t, found, _⟩ := (edge_iff coherent).mp edge
        rw [same, missing] at found
        cases found
    · next t found =>
      apply Visited.enter coherent found
      apply foldl_visited
      intro k member seen
      -- A parent ranks lower, so one step less is enough for it.
      have lower := ((mem_searchParents coherent found).mp member).lower coherent ranked root
      have bound := enough found
      obtain ⟨fuel, rfl⟩ : ∃ n, fuel = n + 1 := ⟨fuel - 1, by omega⟩
      exact ih fuel (by omega) seen (fun _ => by omega)

/-- The search visits a type and all its supertypes. -/
theorem mem_searchOrder_of_ranked (coherent : Coherent r) (ranked : Ranked r rank) :
    t ∈ r.searchOrder i ↔ ∃ j, r.get? j = some t ∧ ∃ n, Path r n i j := by
  obtain ⟨rank, ranked, root, within⟩ := ranked.bounded_root coherent
  have visited := visit_visited coherent ranked root r.slots.length [] (i := i)
    (fun found => Nat.le_of_lt (within found))
  rw [searchOrder, List.mem_filterMap]
  constructor
  · rintro ⟨j, member, found⟩
    rcases visited.reached j member with never | ⟨k, start, n, path⟩
    · cases never
    · rw [List.mem_singleton] at start
      subst start
      exact ⟨j, found, n, path⟩
  · rintro ⟨j, found, n, path⟩
    refine ⟨j, ?_, found⟩
    clear found
    induction path with
    | here i => exact visited.started List.mem_cons_self
    | step _ edge ih => exact visited.closed _ (ih visited) List.not_mem_nil _ edge

theorem mem_searchOrder (settled : Settled r) :
    t ∈ r.searchOrder i ↔ ∃ j, r.get? j = some t ∧ ∃ n, Path r n i j := by
  obtain ⟨rank, ranked⟩ := settled.ranked
  exact mem_searchOrder_of_ranked settled.coherent ranked

/-- A visit adds to what was seen before, at the end. -/
theorem prefix_visit (r : Registry) (fuel : Nat) (seen : List TypeId) (i : TypeId) :
    seen <+: r.visit fuel seen i := by
  induction fuel generalizing seen i with
  | zero => exact List.prefix_rfl
  | succ fuel ih =>
    unfold visit
    split
    · exact List.prefix_rfl
    · have entered : seen <+: seen ++ [i] := List.prefix_append _ _
      split
      · exact entered
      · exact List.foldlRecOn _ _ entered fun out before k _ => before.trans (ih out k)

theorem prefix_foldl_visit (r : Registry) (fuel : Nat) (seen starts : List TypeId) :
    seen <+: starts.foldl (r.visit fuel) seen :=
  List.foldlRecOn _ _ List.prefix_rfl fun out before k _ => before.trans (prefix_visit r fuel out k)

/-- A type that is new comes first, before all that is found from it. -/
theorem prefix_enter {fuel : Nat} (new : i ∉ seen) : seen ++ [i] <+: r.visit (fuel + 1) seen i := by
  have unknown : seen.contains i = false := by simpa using new
  simp only [visit, unknown, Bool.false_eq_true, if_false]
  split
  · exact List.prefix_rfl
  · exact prefix_foldl_visit r fuel _ _

/-- No type is visited twice. -/
theorem nodup_visit {fuel : Nat} (nodup : seen.Nodup) : (r.visit fuel seen i).Nodup := by
  induction fuel generalizing seen i with
  | zero => exact nodup
  | succ fuel ih =>
    unfold visit
    split
    · exact nodup
    · next new =>
      rw [List.contains_iff_mem] at new
      have entered : (seen ++ [i]).Nodup := List.nodup_append_comm.mp (nodup.cons new)
      split
      · exact entered
      · exact List.foldlRecOn _ _ entered fun out before k _ => ih before

theorem mem_addNewMethods {found declared : List Method} {m : Method}
    (member : m ∈ addNewMethods found declared) :
    m ∈ found ∨ m ∈ declared := by
  induction declared generalizing found with
  | nil => exact Or.inl member
  | cons first rest ih =>
    simp only [addNewMethods, List.foldl_cons] at member
    rcases ih member with before | later
    · split at before
      · exact Or.inl before
      · rcases List.mem_append.mp before with old | new
        · exact Or.inl old
        · rw [List.mem_singleton] at new
          exact Or.inr (new ▸ List.mem_cons_self)
    · exact Or.inr (List.mem_cons_of_mem _ later)

/-- A method of a type is declared by the type or by one of its supertypes. -/
theorem mem_allMethods {m : Method} (member : m ∈ r.allMethods i) :
    ∃ t ∈ r.searchOrder i, m ∈ t.methods := by
  have collected : ∀ (types : List TypeInfo) (found : List Method),
      m ∈ types.foldl (fun found type => addNewMethods found type.methods) found →
        m ∈ found ∨ ∃ t ∈ types, m ∈ t.methods := by
    intro types
    induction types with
    | nil => exact fun found member => Or.inl member
    | cons first rest ih =>
      intro found member
      rcases ih _ member with before | ⟨t, listed, declared⟩
      · rcases mem_addNewMethods before with old | new
        · exact Or.inl old
        · exact Or.inr ⟨first, List.mem_cons_self, new⟩
      · exact Or.inr ⟨t, List.mem_cons_of_mem _ listed, declared⟩
  rcases collected _ [] member with never | declared
  · cases never
  · exact declared

theorem declaring_of_mem_allMethods {m : Method} (settled : Settled r)
    (member : m ∈ r.allMethods i) :
    ∃ n, Path r n i m.declaring := by
  obtain ⟨t, listed, declared⟩ := mem_allMethods member
  obtain ⟨j, found, n, path⟩ := (mem_searchOrder settled).mp listed
  have own := (settled.coherent.fits found).own_methods m declared
  rw [own, settled.coherent.ids found]
  exact ⟨n, path⟩

theorem field?_declared {name : String} {f : Field} (found : r.field? i name = some f) :
    f.name = name ∧ ∃ t ∈ r.searchOrder i, f ∈ t.fields := by
  obtain ⟨t, listed, chosen⟩ := List.exists_of_findSome?_eq_some found
  exact ⟨by simpa using List.find?_some chosen, t, listed, List.mem_of_find?_eq_some chosen⟩

/-- Collecting defaults keeps what is there, has a value for every declared name, and takes values
from the declarations only. -/
theorem collectDefaults (declared : List Field) (found : List (String × Value)) :
    let all := declared.foldl (fun found f =>
      if (found.lookup f.name).isSome then found else found ++ [(f.name, f.default)]) found
    (∀ name, (found.lookup name).isSome → (all.lookup name).isSome) ∧
      (∀ f ∈ declared, (all.lookup f.name).isSome) ∧
      ∀ entry ∈ all, entry ∈ found ∨ ∃ f ∈ declared, entry = (f.name, f.default) := by
  induction declared generalizing found with
  | nil => exact ⟨fun _ there => there, nofun, fun _ member => Or.inl member⟩
  | cons first rest ih =>
    intro all
    simp only [all, List.foldl_cons]
    split
    · next already =>
      obtain ⟨kept, covered, sources⟩ := ih found
      refine ⟨kept, ?_, ?_⟩
      · intro f member
        rcases List.mem_cons.mp member with rfl | later
        · exact kept _ already
        · exact covered f later
      · intro entry member
        rcases sources entry member with old | ⟨f, listed, same⟩
        · exact Or.inl old
        · exact Or.inr ⟨f, List.mem_cons_of_mem _ listed, same⟩
    · obtain ⟨kept, covered, sources⟩ := ih (found ++ [(first.name, first.default)])
      refine ⟨?_, ?_, ?_⟩
      · intro name there
        apply kept
        simp [List.lookup_append, there]
      · intro f member
        rcases List.mem_cons.mp member with rfl | later
        · apply kept
          simp [List.lookup_append]
        · exact covered f later
      · intro entry member
        rcases sources entry member with old | ⟨f, listed, same⟩
        · rcases List.mem_append.mp old with before | new
          · exact Or.inl before
          · rw [List.mem_singleton] at new
            exact Or.inr ⟨first, List.mem_cons_self, new⟩
        · exact Or.inr ⟨f, List.mem_cons_of_mem _ listed, same⟩

/-- A fresh instance has every field of its class and supertypes that is not static. -/
theorem instanceDefaults_complete {f : Field} (listed : t ∈ r.searchOrder i)
    (declared : f ∈ t.fields)
    (onInstance : f.isStatic = false) : ((r.instanceDefaults i).lookup f.name).isSome := by
  refine (collectDefaults _ _).2.1 f ?_
  simp only [List.mem_flatMap, List.mem_filter]
  exact ⟨t, listed, declared, by simp [onInstance]⟩

theorem instanceDefaults_source {entry : String × Value} (member : entry ∈ r.instanceDefaults i) :
    ∃ t ∈ r.searchOrder i, ∃ f ∈ t.fields, f.isStatic = false ∧ entry = (f.name, f.default) := by
  rcases (collectDefaults _ _).2.2 entry member with never | ⟨f, declared, same⟩
  · cases never
  · simp only [List.mem_flatMap, List.mem_filter] at declared
    obtain ⟨t, listed, inType, onInstance⟩ := declared
    exact ⟨t, listed, f, inType, by simpa using onInstance, same⟩

end Interop.Registry
