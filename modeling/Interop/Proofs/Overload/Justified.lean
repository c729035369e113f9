import Interop.Proofs.Overload.Selection

/-!
What the memo claims is so. A registry only grows, so a distance that was found once is still there,
though perhaps not the same one; a distance that was not found may be there by now. `Justified` is
the half that lasts: where the memo has a distance, the types have one.

Whatever asking for one distance keeps, overload choice as a whole keeps.
-/
namespace Interop.Overload

variable {α : Type} {r : Registry} {memo : Memo} {p a c : TypeId} {arg : Value} {args : List Value}
  {member : Signature}

def Memo.Justified (memo : Memo) (r : Registry) : Prop :=
  ∀ p a d, memo.entries.lookup (p, a) = some (some d) → (typeDistance r p a).isSome

section Keeps

variable {P : Memo → Prop} (step : ∀ p a memo, P memo → P (distance r p a memo).2)

include step

theorem matchArgument_keeps (p : TypeId) (arg : Value) (before : P memo) :
    P (matchArgument r p arg memo).2 := by
  unfold matchArgument
  split
  · exact step p _ memo before
  · split <;> exact before

theorem matchPairs_keeps (pairs : List (TypeId × Value)) (total : Nat) (before : P memo) :
    P (matchPairs r pairs total memo).2 := by
  induction pairs generalizing total memo with
  | nil => exact before
  | cons pair rest ih =>
    obtain ⟨p, arg⟩ := pair
    have asked := matchArgument_keeps step p arg before
    unfold matchPairs
    split
    · next unmatched =>
      rw [unmatched] at asked
      exact asked
    · next matched =>
      rw [matched] at asked
      exact ih _ asked

theorem score_keeps (member : Signature) (args : List Value) (before : P memo) :
    P (score r member args memo).2 := by
  unfold score
  dsimp only
  generalize (if member.variadic then member.params.dropLast else member.params) = fixed
  split
  · exact before
  · have front := matchPairs_keeps step (fixed.zip args) 0 before
    split
    · next unmatched =>
      rw [unmatched] at front
      exact front
    · next matched =>
      rw [matched] at front
      split
      · split
        · exact front
        · exact matchPairs_keeps step _ _ front
      · exact front

theorem measure_keeps (signature : α → Signature) (args : List Value) (candidates : List α)
    (before : P memo) :
    P (measure r signature args candidates memo).2 := by
  induction candidates generalizing memo with
  | nil => exact before
  | cons m rest ih =>
    have scored := score_keeps step (signature m) args before
    unfold measure
    split
    · split
      · next result =>
        rw [result] at scored
        exact ih scored
      · next result =>
        rw [result] at scored
        exact scored
      · next memo' _ result =>
        rw [result] at scored
        have others := ih scored
        generalize measure r signature args rest memo' = measured at others
        obtain ⟨measured, memo''⟩ := measured
        cases measured <;> exact others
    · exact ih before

theorem select_keeps (signature : α → Signature) (name : String) (candidates : List α)
    (args : List Value)
    (before : P memo) : P (select r signature name candidates args memo).2.2 := by
  have measured := measure_keeps step signature args candidates before
  unfold select
  split
  · next result =>
    rw [result] at measured
    exact measured
  · next result =>
    rw [result] at measured
    split <;> exact measured

theorem choose_keeps (signature : α → Signature) (name : String) (candidates : List α)
    (args : List Value) (absent noMatch : BridgeError) (before : P memo) :
    P (choose r signature name candidates args absent noMatch memo).2.2 := by
  unfold choose
  dsimp only
  split
  · exact before
  · split
    · exact before
    · exact before
    · have selected := select_keeps step signature name candidates args before
      split
      · next result =>
        rw [result] at selected
        exact selected
      · next result =>
        rw [result] at selected
        exact selected

end Keeps

/-- What is chosen is one of the candidates. -/
theorem choose_mem {signature : α → Signature} {name : String} {candidates : List α}
    {absent noMatch : BridgeError}
    {m : α} (chosen : (choose r signature name candidates args absent noMatch memo).1 = .ok m) :
    m ∈ candidates := by
  have outcome := choose_outcome r signature name candidates args absent noMatch memo
  rw [chosen] at outcome
  cases outcome with
  | chosen _ member _ => exact member

theorem Memo.Justified.distance (p a : TypeId) (justified : memo.Justified r) :
    (distance r p a memo).2.Justified r := by
  unfold Overload.distance
  split
  · exact justified
  · split
    · split
      · exact justified
      · intro p' a' d found
        simp only [List.lookup_cons] at found
        split at found
        · next same =>
          cases eq_of_beq same
          rw [Option.some.inj found]
          rfl
        · exact justified p' a' d found
    · exact justified

theorem distance_justified (justified : memo.Justified r) (found : (distance r p a memo).1.isSome) :
    p = a ∨ (typeDistance r p a).isSome := by
  unfold distance at found
  split at found
  · next same => exact Or.inl same
  · split at found
    · split at found
      · next hit entry =>
        obtain ⟨d, rfl⟩ := Option.isSome_iff_exists.mp found
        exact Or.inr (justified p a d entry)
      · exact Or.inr found
    · exact Or.inr found

/-- Some justified memo gives the argument a distance. -/
def Matches (r : Registry) (p : TypeId) (arg : Value) : Prop :=
  ∃ memo : Memo, memo.Justified r ∧ (matchArgument r p arg memo).1.isSome

theorem matches_of_matchPairs {pairs : List (TypeId × Value)} {total : Nat}
    (justified : memo.Justified r) (matched : (matchPairs r pairs total memo).1.isSome) :
    ∀ pair ∈ pairs, Matches r pair.1 pair.2 := by
  induction pairs generalizing total memo with
  | nil => exact nofun
  | cons pair rest ih =>
    obtain ⟨p, arg⟩ := pair
    have asked := matchArgument_keeps (P := fun memo => memo.Justified r)
        (fun p a _ before => before.distance p a)
      p arg justified
    unfold matchPairs at matched
    split at matched
    · cases matched
    · next result =>
      rw [result] at asked
      refine List.forall_mem_cons.mpr ⟨⟨memo, justified, ?_⟩, ih asked matched⟩
      rw [result]
      rfl

/-- The parameters that take one argument each. -/
def fixedParams (member : Signature) : List TypeId :=
  if member.variadic then member.params.dropLast else member.params

theorem matches_of_score (justified : memo.Justified r)
    (scored : (score r member args memo).1.isSome) :
    (fixedParams member).length ≤ args.length ∧
      (∀ pair ∈ (fixedParams member).zip args, Matches r pair.1 pair.2) ∧
      (member.variadic = true → ∃ last c, member.params.getLast? = some last ∧
        r.component? last = some c ∧
        ∀ arg ∈ args.drop (fixedParams member).length, Matches r c arg) := by
  unfold score at scored
  dsimp only at scored
  rw [← fixedParams] at scored
  split at scored
  · cases scored
  · next enough =>
    have front := matchPairs_keeps (P := fun memo => memo.Justified r)
        (fun p a _ before => before.distance p a)
      ((fixedParams member).zip args) 0 justified
    split at scored
    · cases scored
    · next total memo' result =>
      have some : (matchPairs r ((fixedParams member).zip args) 0 memo).1.isSome := by
        rw [result]
        rfl
      refine ⟨by omega, matches_of_matchPairs justified some, ?_⟩
      intro variadic
      rw [if_pos variadic] at scored
      split at scored
      · cases scored
      · next c component =>
        obtain ⟨last, isLast, array⟩ := Option.bind_eq_some_iff.mp component
        rw [result] at front
        refine ⟨last, c, isLast, array, ?_⟩
        intro arg member
        exact matches_of_matchPairs front scored (c, arg) (List.mem_map.mpr ⟨arg, member, rfl⟩)

end Interop.Overload
