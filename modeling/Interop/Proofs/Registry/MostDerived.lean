import Interop.Proofs.Registry.Inheritance
import Interop.Proofs.Registry.Naming

/-!
Which body runs. The search keeps a list of what it has visited, and that list never changes what is
found first: a class has the body that it declares, or else the one that its superclass has, or else
the one that the first of its interfaces has that has any. Between classes this is the most derived
one. Between interfaces it need not be: where two ways lead to one interface, its body is found on
the first way, and a body that overrides it on the second way is passed over.
-/
namespace Interop.Registry

variable {r : Registry} {rank : TypeId → Nat} {i j k cls : TypeId} {t : TypeInfo} {n : Nat}
  {seen ids starts : List TypeId} {m own : Method}

section

variable {α : Type} {f : TypeInfo → Option α} {a : α}

/-- What is found first among types that are visited one after the other. -/
def firstAmong (r : Registry) (f : TypeInfo → Option α) (ids : List TypeId) : Option α :=
  (ids.filterMap r.get?).findSome? f

theorem firstAmong_eq_none :
    r.firstAmong f ids = none ↔ ∀ j ∈ ids, ∀ t, r.get? j = some t → f t = none := by
  simp only [firstAmong, List.findSome?_eq_none_iff, List.mem_filterMap, forall_exists_index,
    and_imp]
  exact ⟨fun all j member t => all t j member, fun all t j member => all j member t⟩

theorem firstAmong_prefix (before : seen <+: ids) (found : r.firstAmong f seen = some a) :
    r.firstAmong f ids = some a := by
  obtain ⟨rest, rfl⟩ := before
  rw [firstAmong] at found
  rw [firstAmong, List.filterMap_append, List.findSome?_append, found]
  rfl

/-- Of the types that are seen already, those above `i` have been searched with all that is above
them. -/
def Finished (r : Registry) (seen : List TypeId) (i : TypeId) : Prop :=
  ∀ j ∈ seen, ∀ n, Path r n i j → ∀ k, Edge r j k → k ∈ seen

theorem Finished.mem_of_path (finished : Finished r seen i) (start : i ∈ seen)
    (path : Path r n i j) : j ∈ seen := by
  induction path with
  | here => exact start
  | step path edge ih => exact finished _ (ih finished start) _ path _ edge

/-- While the parents of a type are visited, the type itself is not above them. -/
theorem Finished.enter (finished : Finished r seen i) (edge : Edge r i k) (coherent : Coherent r)
    (ranked : Ranked r rank) (root : ∀ {i}, i ≠ .object → rank .object < rank i) :
    Finished r (seen ++ [i]) k := by
  intro j member n path l next
  rcases List.mem_append.mp member with before | itself
  · have above := (Path.step (.here i) edge).trans path
    exact List.mem_append_left _ (finished j before _ above l next)
  · obtain rfl := List.mem_singleton.mp itself
    have lower := edge.lower coherent ranked root
    have back := path.bounded coherent ranked root
    omega

theorem Finished.visited (finished : Finished r seen i) (visited : Visited r seen starts ids) :
    Finished r ids i := by
  intro j member n path k edge
  by_cases before : j ∈ seen
  · exact visited.kept (finished j before n path k edge)
  · exact visited.closed j member before k edge

/-- Visits one after the other find what the first of them finds that finds anything, if none of
them is misled by what was seen before. -/
theorem firstAmong_foldl {fuel : Nat} {search : TypeId → Option α} (starts : List TypeId)
    (nothing : r.firstAmong f seen = none) (finished : ∀ k ∈ starts, Finished r seen k)
    (visited : ∀ k ∈ starts, ∀ seen, Visited r seen [k] (r.visit fuel seen k))
    (each : ∀ k ∈ starts, ∀ seen, r.firstAmong f seen = none → Finished r seen k →
      r.firstAmong f (r.visit fuel seen k) = search k) :
    r.firstAmong f (starts.foldl (r.visit fuel) seen) = starts.findSome? search := by
  induction starts generalizing seen with
  | nil => exact nothing
  | cons k rest ih =>
    have first := each k List.mem_cons_self seen nothing (finished k List.mem_cons_self)
    rw [List.foldl_cons, List.findSome?_cons]
    cases found : search k with
    | some a => exact firstAmong_prefix (prefix_foldl_visit r fuel _ rest) (first.trans found)
    | none =>
      apply ih (first.trans found)
      · intro k' member
        have before := finished k' (List.mem_cons_of_mem _ member)
        exact before.visited (visited k List.mem_cons_self seen)
      · exact fun k' member => visited k' (List.mem_cons_of_mem _ member)
      · exact fun k' member => each k' (List.mem_cons_of_mem _ member)

/-- A type that is visited for the first time is searched before its parents. -/
theorem firstAmong_enter {fuel : Nat} {search : TypeId → Option α} (coherent : Coherent r)
    (ranked : Ranked r rank) (root : ∀ {i}, i ≠ .object → rank .object < rank i)
    (found : r.get? i = some t) (new : i ∉ seen) (enough : rank i ≤ fuel)
    (nothing : r.firstAmong f seen = none) (finished : Finished r seen i)
    (parents : ∀ k, Edge r i k → ∀ fuel seen, rank k ≤ fuel → r.firstAmong f seen = none →
      Finished r seen k → r.firstAmong f (r.visit (fuel + 1) seen k) = search k) :
    r.firstAmong f (r.visit (fuel + 1) seen i) = (f t).or ((searchParents t).findSome? search) := by
  have entered : r.firstAmong f (seen ++ [i]) = f t := by
    rw [firstAmong] at nothing
    rw [firstAmong, List.filterMap_append, List.findSome?_append, nothing]
    simp [found]
  cases here : f t with
  | some a => exact firstAmong_prefix (prefix_enter new) (entered.trans here)
  | none =>
    have unknown : seen.contains i = false := by simpa using new
    simp only [visit, unknown, Bool.false_eq_true, if_false, found]
    -- Every parent ranks lower, so what is left of the fuel is enough for it.
    have less : ∀ k ∈ searchParents t, Edge r i k ∧ ∃ fuel', fuel = fuel' + 1 ∧ rank k ≤ fuel' := by
      intro k member
      have edge := (mem_searchParents coherent found).mp member
      have lower := edge.lower coherent ranked root
      exact ⟨edge, fuel - 1, by omega, by omega⟩
    refine firstAmong_foldl _ (entered.trans here) ?_ ?_ ?_
    · exact fun k member => finished.enter (less k member).1 coherent ranked root
    · intro k member seen
      obtain ⟨_, fuel', rfl, bound⟩ := less k member
      exact visit_visited coherent ranked root fuel' seen fun _ => bound
    · intro k member seen nothing finished
      obtain ⟨edge, fuel', rfl, bound⟩ := less k member
      exact parents k edge fuel' seen bound nothing finished

theorem finished_nil : Finished r [] i := fun _ member => absurd member List.not_mem_nil

/-- A search finds the same, whatever has been searched in vain before. -/
theorem firstAmong_visit (coherent : Coherent r) (ranked : Ranked r rank)
    (root : ∀ {i}, i ≠ .object → rank .object < rank i)
    (within : ∀ {i t}, r.get? i = some t → rank i < r.slots.length) (fuel : Nat)
    (enough : rank i ≤ fuel) (nothing : r.firstAmong f seen = none) (finished : Finished r seen i) :
    r.firstAmong f (r.visit (fuel + 1) seen i) = (r.searchOrder i).findSome? f := by
  induction bound : rank i using Nat.strong_induction_on generalizing i fuel seen with
  | _ _ ih =>
  subst bound
  by_cases new : i ∈ seen
  · have stays : r.visit (fuel + 1) seen i = seen := by simp [visit, new]
    rw [stays, nothing]
    symm
    rw [List.findSome?_eq_none_iff]
    intro u listed
    obtain ⟨j, there, n, path⟩ := (mem_searchOrder_of_ranked coherent ranked).mp listed
    exact firstAmong_eq_none.mp nothing j (finished.mem_of_path new path) u there
  cases found : r.get? i with
  | none =>
    have last : r.visit (fuel + 1) seen i = seen ++ [i] := by simp [visit, new, found]
    have alone : r.searchOrder i = [] := by simp [searchOrder, visit, found]
    rw [firstAmong] at nothing
    simp [firstAmong, last, alone, found, nothing]
  | some t =>
    have parents : ∀ k, Edge r i k → ∀ fuel seen, rank k ≤ fuel → r.firstAmong f seen = none →
        Finished r seen k → r.firstAmong f (r.visit (fuel + 1) seen k) =
          (r.searchOrder k).findSome? f := by
      intro k edge fuel seen enough nothing finished
      exact ih _ (edge.lower coherent ranked root) fuel enough nothing finished rfl
    rw [firstAmong_enter coherent ranked root found new enough nothing finished parents]
    exact (firstAmong_enter coherent ranked root found List.not_mem_nil
      (Nat.le_of_lt (within found)) rfl finished_nil parents).symm

/-- What is found first from a type is on the type itself or is what its parents find first, in
their order. -/
theorem findSome?_searchOrder (coherent : Coherent r) (ranked : Ranked r rank)
    (found : r.get? i = some t) :
    (r.searchOrder i).findSome? f =
      (f t).or ((searchParents t).findSome? fun k => (r.searchOrder k).findSome? f) := by
  obtain ⟨rank, ranked, root, within⟩ := ranked.bounded_root coherent
  refine firstAmong_enter coherent ranked root found List.not_mem_nil (Nat.le_of_lt (within found))
    rfl finished_nil ?_
  intro k _ fuel seen enough nothing finished
  exact firstAmong_visit coherent ranked root within fuel enough nothing finished

end

/-- The method of a type with a body and the signature of `m` that instances can run. -/
def declaredBody? (m : Method) (t : TypeInfo) : Option Method :=
  t.methods.find? fun other => other.sameSignature m && other.body.isSome && !other.isStatic

def bodyAt? (r : Registry) (i : TypeId) (m : Method) : Option Method :=
  (r.get? i).bind (declaredBody? m)

theorem bodyAt?_eq (found : r.get? i = some t) : r.bodyAt? i m = declaredBody? m t := by
  rw [bodyAt?, found, Option.bind_some]

theorem bodyAt?_live (body : (r.bodyAt? i m).isSome) : ∃ t, r.get? i = some t := by
  obtain ⟨b, declared⟩ := Option.isSome_iff_exists.mp body
  obtain ⟨t, found, _⟩ := Option.bind_eq_some_iff.mp declared
  exact ⟨t, found⟩

theorem declaredBody?_declaring (coherent : Coherent r) (found : r.get? i = some t)
    (body : declaredBody? m t = some own) : own.declaring = i := by
  rw [(coherent.fits found).own_methods own (List.mem_of_find?_eq_some body), coherent.ids found]

theorem implementation?_eq (coherent : Coherent r) (ranked : Ranked r rank)
    (found : r.get? cls = some t) :
    r.implementation? cls m =
      (declaredBody? m t).or ((searchParents t).findSome? fun k => r.implementation? k m) :=
  findSome?_searchOrder coherent ranked found

theorem implementation?_isSome (coherent : Coherent r) (ranked : Ranked r rank) :
    (r.implementation? cls m).isSome ↔ ∃ j, (∃ n, Path r n cls j) ∧ (r.bodyAt? j m).isSome := by
  have searched : (r.implementation? cls m).isSome ↔
      ∃ t ∈ r.searchOrder cls, (declaredBody? m t).isSome := List.findSome?_isSome_iff
  rw [searched]
  constructor
  · rintro ⟨t, listed, body⟩
    obtain ⟨j, found, path⟩ := (mem_searchOrder_of_ranked coherent ranked).mp listed
    exact ⟨j, path, by rwa [bodyAt?_eq found]⟩
  · rintro ⟨j, path, body⟩
    obtain ⟨t, found⟩ := bodyAt?_live body
    exact ⟨t, (mem_searchOrder_of_ranked coherent ranked).mpr ⟨j, found, path⟩,
      by rwa [bodyAt?_eq found] at body⟩

theorem path_of_bodyAt? (coherent : Coherent r) (ranked : Ranked r rank)
    (assignable : r.isAssignable i j = true) (body : (r.bodyAt? j m).isSome) :
    ∃ n, Path r n i j := by
  obtain ⟨t, found⟩ := bodyAt?_live body
  rw [bodyAt?_eq found] at body
  obtain ⟨b, declared⟩ := Option.isSome_iff_exists.mp body
  exact path_of_method coherent ranked assignable found (List.mem_of_find?_eq_some declared)

def IsInterface (r : Registry) (i : TypeId) : Prop := ∃ t, r.get? i = some t ∧ t.isInterface = true

/-- Above an interface there are interfaces and the root class. -/
theorem Path.from_interface (path : Path r n i j) (coherent : Coherent r)
    (start : IsInterface r i) : j = .object ∨ IsInterface r j := by
  induction path with
  | here => exact Or.inr start
  | step _ edge ih =>
    rcases ih start with rfl | ⟨t, found, isInterface⟩
    · exact absurd edge (object_no_edge coherent)
    · obtain ⟨u, there, reason⟩ := (edge_iff coherent).mp edge
      rw [found] at there
      cases there
      have alone := (coherent.fits found).interface_alone isInterface
      rcases reason with super | ⟨_, root⟩
      · rw [TypeInfo.supers, alone, Option.toList_none, List.nil_append] at super
        exact Or.inr ((coherent.fits found).interfaces _ super)
      · exact Or.inl root

theorem Path.from_object (path : Path r n .object j) (coherent : Coherent r) : j = .object := by
  cases n with
  | zero => cases path; rfl
  | succ n =>
    obtain ⟨_, edge, _⟩ := path.first
    exact absurd edge (object_no_edge coherent)

/-- To a class other than the root class the first step goes to the superclass. -/
theorem Edge.to_class (edge : Edge r i k) (path : Path r n k j) (coherent : Coherent r)
    (found : r.get? i = some t) (noRoot : j ≠ .object) (noInterface : ¬IsInterface r j) :
    t.superclass = some k := by
  obtain ⟨u, there, reason⟩ := (edge_iff coherent).mp edge
  rw [found] at there
  cases there
  rcases reason with super | ⟨_, rfl⟩
  · rcases List.mem_append.mp super with superclass | interface
    · exact Option.mem_toList.mp superclass
    · have start := (coherent.fits found).interfaces k interface
      exact absurd (path.from_interface coherent start) (by simp [noRoot, noInterface])
  · exact absurd (path.from_object coherent) noRoot

/-- No class is passed over. -/
theorem passedOver_interface (coherent : Coherent r) (ranked : Ranked r rank)
    (root : ∀ {i}, i ≠ .object → rank .object < rank i)
    (runs : r.implementation? cls m = some own) (path : Path r n cls j)
    (further : ∃ l, Path r l j own.declaring) (different : j ≠ own.declaring)
    (body : (r.bodyAt? j m).isSome) : IsInterface r j := by
  by_contra noInterface
  have noRoot : j ≠ .object := by
    rintro rfl
    obtain ⟨_, further⟩ := further
    exact different (further.from_object coherent).symm
  -- Follows the chain of superclasses from `cls` up to `j`.
  induction n generalizing cls with
  | zero =>
    cases path
    obtain ⟨t, found⟩ := bodyAt?_live body
    rw [bodyAt?_eq found] at body
    obtain ⟨b, declared⟩ := Option.isSome_iff_exists.mp body
    rw [implementation?_eq coherent ranked found, declared] at runs
    cases runs
    exact different (declaredBody?_declaring coherent found declared).symm
  | succ n ih =>
    obtain ⟨k, edge, rest⟩ := path.first
    obtain ⟨t, found, _⟩ := (edge_iff coherent).mp edge
    have superclass := edge.to_class rest coherent found noRoot noInterface
    obtain ⟨inherited, next⟩ := Option.isSome_iff_exists.mp
      ((implementation?_isSome coherent ranked).mpr ⟨j, ⟨n, rest⟩, body⟩)
    rw [implementation?_eq coherent ranked found] at runs
    cases declared : declaredBody? m t with
    | some b =>
      rw [declared] at runs
      cases runs
      -- The body would be declared below `j`, and `j` below it.
      obtain ⟨l, further⟩ := further
      rw [declaredBody?_declaring coherent found declared] at further
      have upward := path.bounded coherent ranked root
      have downward := further.bounded coherent ranked root
      omega
    | none =>
      simp only [declared, searchParents, superclass, Option.toList_some, List.cons_append,
        List.findSome?_cons, next, Option.none_or] at runs
      exact ih (next.trans runs) rest

/-- A way up to `j` past types without a body for `m`. -/
inductive BareWay (r : Registry) (m : Method) : TypeId → TypeId → Prop where
  | here (i : TypeId) : BareWay r m i i
  | step {i k j : TypeId} (bare : r.bodyAt? i m = none) (edge : Edge r i k)
      (rest : BareWay r m k j) : BareWay r m i j

theorem bareWay_of_implementation? (coherent : Coherent r) (ranked : Ranked r rank)
    (root : ∀ {i}, i ≠ .object → rank .object < rank i)
    (runs : r.implementation? cls m = some own) : BareWay r m cls own.declaring := by
  induction bound : rank cls using Nat.strong_induction_on generalizing cls with
  | _ _ ih =>
  subst bound
  cases found : r.get? cls with
  | none => simp [implementation?, searchOrder, visit, found] at runs
  | some t =>
    rw [implementation?_eq coherent ranked found] at runs
    cases declared : declaredBody? m t with
    | some b =>
      rw [declared] at runs
      cases runs
      rw [declaredBody?_declaring coherent found declared]
      exact .here cls
    | none =>
      rw [declared, Option.none_or] at runs
      obtain ⟨k, member, above⟩ := List.exists_of_findSome?_eq_some runs
      have edge := (mem_searchParents coherent found).mp member
      exact .step ((bodyAt?_eq found).trans declared) edge
        (ih _ (edge.lower coherent ranked root) above rfl)

/-- What runs when `m` is called on an instance of a class. -/
structure RunsFirstBody (r : Registry) : Prop where
  /-- A type has its own body, or else that of the first of its parents that has one. -/
  inherited : ∀ {cls t m}, r.get? cls = some t → r.implementation? cls m =
    (declaredBody? m t).or ((searchParents t).findSome? fun k => r.implementation? k m)
  missing_iff : ∀ {cls m}, r.implementation? cls m = none ↔
    ∀ j, r.isAssignable cls j = true → r.bodyAt? j m = none
  declared : ∀ {cls m own}, r.implementation? cls m = some own →
    r.isAssignable cls own.declaring = true ∧ r.bodyAt? own.declaring m = some own
  /-- A more derived body is passed over only for that of an interface or of the root class, and
  only if it is that of an interface itself. -/
  passedOver : ∀ {cls m own j}, r.implementation? cls m = some own →
    r.isAssignable cls j = true → r.isAssignable j own.declaring = true → j ≠ own.declaring →
      (r.bodyAt? j m).isSome →
        IsInterface r j ∧ (own.declaring = .object ∨ IsInterface r own.declaring)
  /-- And then it stands on another way: one way to the body that runs has no body before it. -/
  bareWay : ∀ {cls m own}, r.implementation? cls m = some own → BareWay r m cls own.declaring

theorem runsFirstBody_of_ranked (coherent : Coherent r) (ranked : Ranked r rank) :
    RunsFirstBody r := by
  obtain ⟨rank, ranked, root, _⟩ := ranked.bounded_root coherent
  have declared : ∀ {cls m own}, r.implementation? cls m = some own →
      r.isAssignable cls own.declaring = true ∧ r.bodyAt? own.declaring m = some own := by
    intro cls m own runs
    obtain ⟨t, listed, body⟩ := List.exists_of_findSome?_eq_some runs
    obtain ⟨j, found, n, path⟩ := (mem_searchOrder_of_ranked coherent ranked).mp listed
    rw [declaredBody?_declaring coherent found body, bodyAt?_eq found]
    exact ⟨(hops_isSome coherent ranked).mpr (below_of_path path), body⟩
  constructor
  case inherited => exact implementation?_eq coherent ranked
  case declared => exact declared
  case missing_iff =>
    intro cls m
    rw [← Option.not_isSome_iff_eq_none, implementation?_isSome coherent ranked]
    constructor
    · intro none j assignable
      by_contra body
      rw [← ne_eq, Option.ne_none_iff_isSome] at body
      exact none ⟨j, path_of_bodyAt? coherent ranked assignable body, body⟩
    · rintro none ⟨j, ⟨n, path⟩, body⟩
      rw [none j ((hops_isSome coherent ranked).mpr (below_of_path path))] at body
      cases body
  case passedOver =>
    intro cls m own j runs assignable below different body
    obtain ⟨n, path⟩ := path_of_bodyAt? coherent ranked assignable body
    have runsThere : (r.bodyAt? own.declaring m).isSome := by rw [(declared runs).2]; rfl
    obtain ⟨l, further⟩ := path_of_bodyAt? coherent ranked below runsThere
    have isInterface :=
      passedOver_interface coherent ranked root runs path ⟨l, further⟩ different body
    exact ⟨isInterface, further.from_interface coherent isInterface⟩
  case bareWay => exact bareWay_of_implementation? coherent ranked root

/-- Whatever has been defined, looked up or generated, a call runs the first body on the way up:
between classes the most derived one. -/
theorem first_body_runs (operations : List Operation) (resolver : TypeId → Resolver) :
    RunsFirstBody (afterAll operations) ∧
      RunsFirstBody ((afterAll operations).resolved resolver).2 :=
  everywhere_of_ranked runsFirstBody_of_ranked operations resolver

/-- A method that answers with a text. -/
def answering (text : String) : MethodDraft where
  name := "m"
  params := []
  returns := none
  modifiers := .plain
  variadic := false
  body := some (.code (.literal (.value (.string text))))

/-- Two interfaces that extend a third, the second of them with a body of its own, and a class that
implements both. -/
def diamondOperations : List Operation := [
  .define { bareDraft "t.A" with isInterface := true, methods := [answering "A"] },
  .define { bareDraft "t.B" with isInterface := true, interfaces := [⟨20⟩] },
  .define { bareDraft "t.C" with
    isInterface := true, interfaces := [⟨20⟩], methods := [answering "C"] },
  .define { bareDraft "t.K" with interfaces := [⟨21⟩, ⟨22⟩] }]

/-- The class runs the body of `t.A`, although `t.C`, which it implements, overrides it. -/
theorem overridden_body_runs :
    let r := afterAll diamondOperations
    ∃ m, (r.get? ⟨20⟩).map TypeInfo.methods = some [m] ∧
      (r.implementation? ⟨23⟩ m).map Method.declaring = some ⟨20⟩ ∧
      r.isAssignable ⟨23⟩ ⟨22⟩ = true ∧ r.isAssignable ⟨22⟩ ⟨20⟩ = true ∧
      (r.bodyAt? ⟨22⟩ m).isSome = true := by
  refine ⟨_, rfl, ?_⟩
  decide +kernel

end Interop.Registry
