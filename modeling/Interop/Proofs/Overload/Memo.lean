import Interop.Overload.Distance

/-!
Distances with a memo. A query may add to the memo, but it changes no answer: whatever is asked next
gets the answer it would have had before. So a score does not depend on what was scored before it.
-/
namespace Interop.Overload

variable {r : Registry} {memo memo' memo'' : Memo} {member : Signature} {args : List Value}

/-- Two memos that give the same answers. -/
def SameAnswers (r : Registry) (memo memo' : Memo) : Prop :=
  ∀ parameter argument, (distance r parameter argument memo').1 =
    (distance r parameter argument memo).1

theorem SameAnswers.refl (r : Registry) (memo : Memo) : SameAnswers r memo memo := fun _ _ => rfl

theorem SameAnswers.trans (first : SameAnswers r memo memo') (second : SameAnswers r memo' memo'') :
    SameAnswers r memo memo'' :=
  fun parameter argument => (second parameter argument).trans (first parameter argument)

theorem distance_sameAnswers (r : Registry) (parameter argument : TypeId) (memo : Memo) :
    SameAnswers r memo (distance r parameter argument memo).2 := by
  unfold distance
  split
  · exact .refl r memo
  · split
    · next enabled =>
      split
      · exact .refl r memo
      · next absent =>
        intro other value
        simp only [distance, enabled, if_true, List.lookup_cons]
        split
        · rfl
        · by_cases same : (other, value) = (parameter, argument)
          · cases same
            simp [absent]
          · simp only [beq_eq_false_iff_ne.mpr same]
            cases memo.entries.lookup (other, value) <;> rfl
    · exact .refl r memo

theorem matchArgument_sameAnswers (parameter : TypeId) (argument : Value)
    (same : SameAnswers r memo memo') :
    (matchArgument r parameter argument memo').1 = (matchArgument r parameter argument memo).1 ∧
      SameAnswers r memo (matchArgument r parameter argument memo').2 := by
  unfold matchArgument
  split
  · exact ⟨same _ _, same.trans (distance_sameAnswers r _ _ memo')⟩
  · split <;> exact ⟨rfl, same⟩

theorem matchPairs_sameAnswers (pairs : List (TypeId × Value)) (total : Nat)
    (same : SameAnswers r memo memo') :
    (matchPairs r pairs total memo').1 = (matchPairs r pairs total memo).1 ∧
      SameAnswers r memo (matchPairs r pairs total memo').2 := by
  induction pairs generalizing total memo memo' with
  | nil => exact ⟨rfl, same⟩
  | cons pair rest ih =>
    obtain ⟨parameter, argument⟩ := pair
    obtain ⟨answer, after⟩ := matchArgument_sameAnswers parameter argument same
    have before := (matchArgument_sameAnswers parameter argument (SameAnswers.refl r memo)).2
    unfold matchPairs
    generalize matchArgument r parameter argument memo' = left at answer after
    generalize matchArgument r parameter argument memo = right at answer before
    obtain ⟨found, left⟩ := left
    obtain ⟨found', right⟩ := right
    dsimp only at answer
    subst answer
    cases found with
    | none => exact ⟨rfl, after⟩
    | some n =>
      have between : SameAnswers r right left :=
        fun parameter argument => (after parameter argument).trans (before parameter argument).symm
      obtain ⟨same', further⟩ := ih (saturate (total + n)) between
      exact ⟨same', before.trans further⟩

/-- A score does not depend on what has been asked before. -/
theorem score_sameAnswers (member : Signature) (args : List Value)
    (same : SameAnswers r memo memo') :
    (score r member args memo').1 = (score r member args memo).1 ∧
      SameAnswers r memo (score r member args memo').2 := by
  unfold score
  dsimp only
  generalize (if member.variadic then member.params.dropLast else member.params) = fixed
  by_cases few : args.length < fixed.length
  · simp only [few, if_true]
    exact ⟨trivial, same⟩
  · simp only [few, if_false]
    obtain ⟨answer, after⟩ := matchPairs_sameAnswers (fixed.zip args) 0 same
    have before := (matchPairs_sameAnswers (fixed.zip args) 0 (SameAnswers.refl r memo)).2
    generalize matchPairs r (fixed.zip args) 0 memo' = left at answer after
    generalize matchPairs r (fixed.zip args) 0 memo = right at answer before
    obtain ⟨found, left⟩ := left
    obtain ⟨found', right⟩ := right
    dsimp only at answer
    subst answer
    cases found with
    | none => exact ⟨rfl, after⟩
    | some total =>
      have between : SameAnswers r right left :=
        fun parameter argument => (after parameter argument).trans (before parameter argument).symm
      cases member.variadic with
      | false => exact ⟨rfl, after⟩
      | true =>
        cases member.params.getLast?.bind r.component? with
        | none => exact ⟨rfl, after⟩
        | some component =>
          obtain ⟨same', further⟩ :=
            matchPairs_sameAnswers
              ((args.drop fixed.length).map (fun arg => (component, arg))) total between
          exact ⟨same', before.trans further⟩

end Interop.Overload
