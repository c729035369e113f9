import Interop.Overload.Distance
import Interop.Proofs.Registry.Consistency
import Interop.Proofs.Registry.HopMetric
import Interop.Proofs.Registry.Naming

/-!
When a memo can be told from none. A registry and the matcher over it are used in turns: operations
change the registry, questions may add to the memo, and entries are never taken back.

An entry holds the distance at the time when its pair of types was asked for first. Between types
that were there at that time the distance has stayed what it was, so the answer is the one that is
found without a memo. An entry that was made for a free slot may outlive it: once the slot is used
again, the memo answers for the type that was not there.
-/
namespace Interop.Overload

/-- A question to the matcher. -/
inductive Query where
  | distance (parameter argument : TypeId)
  | matchArgument (parameter : TypeId) (argument : Value)

namespace Query

def ask (r : Registry) (memo : Memo) : Query → Option Nat × Memo
  | distance parameter argument => Overload.distance r parameter argument memo
  | matchArgument parameter argument => Overload.matchArgument r parameter argument memo

/-- The types that the question is about. Null and void have none, and no memo is asked for them. -/
def pair? : Query → Option (TypeId × TypeId)
  | distance parameter argument => some (parameter, argument)
  | matchArgument parameter argument =>
    (Registry.runtimeType? argument).map (fun actual => (parameter, actual))

end Query

inductive Turn where
  | operate (operation : Registry.Operation)
  | ask (query : Query)

/-- A registry and the memo of the matcher over it. -/
structure Matching where
  registry : Registry
  memo : Memo

namespace Matching

def initial (memoize : Bool) : Matching := ⟨.initial, .empty memoize⟩

def take (m : Matching) : Turn → Matching
  | .operate operation => { m with registry := operation.apply m.registry }
  | .ask query => { m with memo := (query.ask m.registry m.memo).2 }

def after (memoize : Bool) (turns : List Turn) : Matching := turns.foldl take (.initial memoize)

/-- The answer to a question at this moment. -/
def answer (m : Matching) (query : Query) : Option Nat := (query.ask m.registry m.memo).1

end Matching

variable {r r' : Registry} {memo : Memo} {p a : TypeId} {t u : TypeInfo} {query : Query}
  {found : Option Nat}

theorem Query.ask_of_pair (pair : query.pair? = some (p, a)) (r : Registry) (memo : Memo) :
    query.ask r memo = Overload.distance r p a memo := by
  cases query with
  | distance parameter argument =>
    cases pair
    rfl
  | matchArgument parameter argument =>
    obtain ⟨actual, type, same⟩ := Option.map_eq_some_iff.mp pair
    cases same
    simp [ask, Overload.matchArgument, type]

/-- Without types to compare, the memo plays no part. -/
theorem Query.ask_of_no_pair (none : query.pair? = none) (r : Registry) :
    ∃ answer, ∀ memo, query.ask r memo = (answer, memo) := by
  cases query with
  | distance parameter argument => cases none
  | matchArgument parameter argument =>
    have noType : Registry.runtimeType? argument = Option.none := Option.map_eq_none_iff.mp none
    simp only [ask, Overload.matchArgument, noType]
    cases r.get? parameter with
    | none => exact ⟨_, fun _ => rfl⟩
    | some t => exact ⟨_, fun _ => rfl⟩

theorem distance_answer (r : Registry) (p a : TypeId) (memo : Memo) :
    (distance r p a memo).1 =
      if p = a then some 0
      else if memo.enabled then (memo.entries.lookup (p, a)).getD (typeDistance r p a)
      else typeDistance r p a := by
  unfold distance
  split
  · rfl
  · split
    · cases memo.entries.lookup (p, a) <;> rfl
    · rfl

theorem distance_enabled (r : Registry) (p a : TypeId) (memo : Memo) :
    (distance r p a memo).2.enabled = memo.enabled := by
  unfold distance
  split
  · rfl
  · split
    · cases memo.entries.lookup (p, a) <;> rfl
    · rfl

/-- What is in the memo afterwards was there before, or is the distance that was asked for. -/
theorem lookup_distance {key : TypeId × TypeId}
    (entry : (distance r p a memo).2.entries.lookup key = some found) :
    memo.entries.lookup key = some found ∨ (key = (p, a) ∧ found = typeDistance r p a) := by
  unfold distance at entry
  split at entry
  · exact Or.inl entry
  · split at entry
    · split at entry
      · exact Or.inl entry
      · rw [List.lookup_cons] at entry
        split at entry
        · next same => exact Or.inr ⟨eq_of_beq same, (Option.some.inj entry).symm⟩
        · exact Or.inl entry
    · exact Or.inl entry

def Turn.operation? : Turn → Option Registry.Operation
  | operate operation => some operation
  | ask _ => none

namespace Matching

variable {turns earlier later : List Turn}

theorem after_snoc (memoize : Bool) (turns : List Turn) (turn : Turn) :
    after memoize (turns ++ [turn]) = (after memoize turns).take turn := by
  simp [after]

/-- Questions leave the registry alone. -/
theorem registry_after (memoize : Bool) (turns : List Turn) :
    (after memoize turns).registry = Registry.afterAll (turns.filterMap Turn.operation?) := by
  induction turns using List.reverseRecOn with
  | nil => rfl
  | append_singleton turns turn ih =>
    rw [after_snoc, List.filterMap_append, Registry.afterAll, List.foldl_append]
    cases turn with
    | operate operation => exact congrArg operation.apply ih
    | ask query => exact ih

theorem settled_after (memoize : Bool) (turns : List Turn) :
    (after memoize turns).registry.Settled := by
  rw [registry_after]
  exact Registry.settled_afterAll _

/-- Types that are there stay. -/
theorem extends_after (memoize : Bool) (earlier later : List Turn) :
    (after memoize earlier).registry.Extends (after memoize (earlier ++ later)).registry := by
  induction later using List.reverseRecOn with
  | nil =>
    rw [List.append_nil]
    exact .refl _
  | append_singleton later turn ih =>
    rw [← List.append_assoc, after_snoc]
    cases turn with
    | operate operation =>
      exact ih.trans ((settled_after memoize (earlier ++ later)).apply operation).2
    | ask query => exact ih

theorem enabled_after (memoize : Bool) (turns : List Turn) :
    (after memoize turns).memo.enabled = memoize := by
  induction turns using List.reverseRecOn with
  | nil => rfl
  | append_singleton turns turn ih =>
    rw [after_snoc]
    cases turn with
    | operate operation => exact ih
    | ask query =>
      simp only [take]
      cases pair : query.pair? with
      | none =>
        obtain ⟨answer, same⟩ := query.ask_of_no_pair pair (after memoize turns).registry
        rw [same]
        exact ih
      | some types =>
        rw [query.ask_of_pair pair, distance_enabled]
        exact ih

/-- An entry of the memo is the distance at a time when its types were asked for. -/
theorem entry_source {memoize : Bool}
    (entry : (after memoize turns).memo.entries.lookup (p, a) = some found) :
    ∃ earlier query later, turns = earlier ++ .ask query :: later ∧ query.pair? = some (p, a) ∧
      found = typeDistance (after memoize earlier).registry p a := by
  induction turns using List.reverseRecOn with
  | nil => cases entry
  | append_singleton turns turn ih =>
    have before : (after memoize turns).memo.entries.lookup (p, a) = some found →
        ∃ earlier query later, turns ++ [turn] = earlier ++ .ask query :: later ∧
          query.pair? = some (p, a) ∧
          found = typeDistance (after memoize earlier).registry p a := by
      intro entry
      obtain ⟨earlier, query, later, rfl, source⟩ := ih entry
      exact ⟨earlier, query, later ++ [turn], by simp, source⟩
    rw [after_snoc] at entry
    cases turn with
    | operate operation => exact before entry
    | ask query =>
      simp only [take] at entry
      cases pair : query.pair? with
      | none =>
        obtain ⟨answer, same⟩ := query.ask_of_no_pair pair (after memoize turns).registry
        rw [same] at entry
        exact before entry
      | some types =>
        rw [query.ask_of_pair pair] at entry
        rcases lookup_distance entry with old | ⟨same, distance⟩
        · exact before old
        · cases same
          exact ⟨turns, query, [], rfl, pair, distance⟩

end Matching

/-- The types that the question is about are there. A primitive parameter looks at the slot of the
argument only. -/
def Query.Grounded (r : Registry) (query : Query) : Prop :=
  ∀ p a, query.pair? = some (p, a) →
    ∃ t, r.get? p = some t ∧ (t.isPrimitive = false → ∃ u, r.get? a = some u)

theorem typeDistance_stable (settled : r.Settled) (settled' : r'.Settled) (larger : r.Extends r')
    (parameter : r.get? p = some t) (argument : t.isPrimitive = false → ∃ u, r.get? a = some u) :
    typeDistance r' p a = typeDistance r p a := by
  simp only [typeDistance, parameter, larger parameter]
  cases kind : t.primitiveKind? with
  | some k => rfl
  | none =>
    obtain ⟨u, there⟩ := argument (by simp [TypeInfo.isPrimitive, kind])
    simp only [Registry.hops_stable settled settled' larger there parameter]

/-- A memo cannot be told from none by a question whose types were there whenever they were asked
for before. -/
theorem memoized_eq_unmemoized (turns : List Turn) (query : Query)
    (known : ∀ earlier asked later, turns = earlier ++ .ask asked :: later →
      asked.pair? = query.pair? → asked.Grounded (Matching.after true earlier).registry) :
    (Matching.after true turns).answer query = (Matching.after false turns).answer query := by
  have same : (Matching.after false turns).registry = (Matching.after true turns).registry := by
    rw [Matching.registry_after, Matching.registry_after]
  unfold Matching.answer
  rw [same]
  cases pair : query.pair? with
  | none =>
    obtain ⟨answer, always⟩ := query.ask_of_no_pair pair (Matching.after true turns).registry
    rw [always, always]
  | some types =>
    obtain ⟨p, a⟩ := types
    simp only [query.ask_of_pair pair, distance_answer, Matching.enabled_after, if_true,
      Bool.false_eq_true, if_false]
    split
    · rfl
    · cases entry : (Matching.after true turns).memo.entries.lookup (p, a) with
      | none => rfl
      | some found =>
        obtain ⟨earlier, asked, later, split, about, rfl⟩ := Matching.entry_source entry
        obtain ⟨t, parameter, argument⟩ :=
          known earlier asked later split (about.trans pair.symm) p a about
        have grown := Matching.extends_after true earlier (.ask asked :: later)
        rw [← split] at grown
        exact (typeDistance_stable (Matching.settled_after true earlier)
          (Matching.settled_after true turns) grown parameter argument).symm

open Registry (bareDraft)

/-- Two classes, a question about them, and an array type. -/
def groundedTurns : List Turn := [
  .operate (.define (bareDraft "app.Base")),
  .operate (.define { bareDraft "app.Derived" with superclass := some ⟨20⟩ }),
  .ask (.distance ⟨20⟩ ⟨21⟩),
  .operate (.arrayOf ⟨21⟩)]

theorem memoized_groundedTurns :
    (Matching.after true groundedTurns).memo.size = 1 ∧
      (Matching.after true groundedTurns).answer (.distance ⟨20⟩ ⟨21⟩) =
        (Matching.after false groundedTurns).answer (.distance ⟨20⟩ ⟨21⟩) ∧
      (Matching.after false groundedTurns).answer (.distance ⟨20⟩ ⟨21⟩) = some 100 := by
  refine ⟨rfl, memoized_eq_unmemoized groundedTurns (.distance ⟨20⟩ ⟨21⟩) ?_, by decide +kernel⟩
  intro earlier asked later split _
  -- The only question comes after both definitions.
  have position : earlier = groundedTurns.take 2 ∧ asked = .distance ⟨20⟩ ⟨21⟩ := by
    rcases earlier with _ | ⟨_, _ | ⟨_, _ | ⟨_, _ | ⟨_, _⟩⟩⟩⟩ <;> simp_all [groundedTurns]
  obtain ⟨rfl, rfl⟩ := position
  rintro p a ⟨⟩
  exact ⟨_, rfl, fun _ => ⟨_, rfl⟩⟩

/-- A class that is refused, a question about its slot, and a class that takes the slot over. -/
def recycledTurns : List Turn := [
  .operate (.defineWith fun _ => .done { bareDraft "app.Refused" with superclass := some .string }),
  .ask (.distance .object ⟨20⟩),
  .operate (.define (bareDraft "app.Thing"))]

/-- The memo still answers for the class that was refused. -/
theorem stale_recycledTurns :
    (Matching.after true recycledTurns).answer (.distance .object ⟨20⟩) = none ∧
      (Matching.after false recycledTurns).answer (.distance .object ⟨20⟩) = some 100 := by
  decide +kernel

end Interop.Overload
