import Interop.Overload.Choice
import Interop.Proofs.Overload.Memo

/-!
Overload choice. Measuring stops at an exact match, and a stable sort orders the other candidates;
both come to the same reference: the earliest of the candidates whose score is lowest.
-/
namespace Interop.Overload

variable {α : Type} {r : Registry} {memo memo' : Memo} {signature : α → Signature}
    {scoreOf : α → Option Nat}
  {candidates : List α} {args : List Value} {m m' : α}

/-- The score of a member that takes the number of arguments given. -/
def callScore (r : Registry) (memo : Memo) (args : List Value) (member : Signature) : Option Nat :=
  if isApplicable member args then (score r member args memo).1 else none

/-- The earliest candidate of the lowest score. -/
def FirstMinimal (scoreOf : α → Option Nat) (candidates : List α) (m : α) : Prop :=
  ∃ before after n, candidates = before ++ m :: after ∧ scoreOf m = some n ∧
    (∀ c ∈ before, ∀ k, scoreOf c = some k → n < k) ∧ ∀ c ∈ after, ∀ k, scoreOf c = some k → n ≤ k

/-- Of two splits at a candidate, each with a lower score than all before it, neither can come
later. -/
theorem FirstMinimal.unique (first : FirstMinimal scoreOf candidates m)
    (second : FirstMinimal scoreOf candidates m') :
    m = m' := by
  obtain ⟨before, after, n, split, scored, earlier, later⟩ := first
  obtain ⟨before', after', n', split', scored', earlier', later'⟩ := second
  rw [split] at split'
  rcases List.append_eq_append_iff.mp split' with ⟨between, rfl, tail⟩ | ⟨between, rfl, tail⟩
  · cases between with
    | nil =>
      rw [List.nil_append, List.cons.injEq] at tail
      exact tail.1
    | cons head rest =>
      rw [List.cons_append, List.cons.injEq] at tail
      obtain ⟨rfl, rfl⟩ := tail
      have lower := earlier' m (by simp) n scored
      have higher := later m' (by simp) n' scored'
      omega
  · cases between with
    | nil =>
      rw [List.nil_append, List.cons.injEq] at tail
      exact tail.1.symm
    | cons head rest =>
      rw [List.cons_append, List.cons.injEq] at tail
      obtain ⟨rfl, rfl⟩ := tail
      have lower := earlier m' (by simp) n' scored'
      have higher := later' m (by simp) n scored
      omega

/-- What measuring gives, said by the scores alone. -/
inductive MeasuredAs (scoreOf : α → Option Nat) (candidates : List α) : Measured α → Prop where
  | exact {m : α} (before after : List α) (split : candidates = before ++ m :: after)
      (zero : scoreOf m = some 0)
      (earlier : ∀ c ∈ before, scoreOf c ≠ some 0) : MeasuredAs scoreOf candidates (.exact m)
  | scored (positive : ∀ c ∈ candidates, scoreOf c ≠ some 0) :
      MeasuredAs scoreOf candidates
        (.scored (candidates.filterMap (fun c => (scoreOf c).map (fun n => (c, n)))))

/-- Puts a score in front, if there is one. An exact match makes it meaningless. -/
def Measured.prepend (own : Option (α × Nat)) : Measured α → Measured α
  | .exact other => .exact other
  | .scored members => .scored (own.toList ++ members)

theorem MeasuredAs.cons {rest : List α} {measured : Measured α}
    (tail : MeasuredAs scoreOf rest measured) (positive : scoreOf m ≠ some 0) :
    MeasuredAs scoreOf (m :: rest) (measured.prepend ((scoreOf m).map (fun n => (m, n)))) := by
  cases tail with
  | exact before after split zero earlier =>
    refine .exact (m :: before) after (by rw [split, List.cons_append]) zero ?_
    intro c member
    rcases List.mem_cons.mp member with rfl | old
    · exact positive
    · exact earlier c old
  | scored others =>
    have listed : ((scoreOf m).map (fun n => (m, n))).toList ++
        rest.filterMap (fun c => (scoreOf c).map (fun n => (c, n))) =
          (m :: rest).filterMap (fun c => (scoreOf c).map (fun n => (c, n))) := by
      cases scored : scoreOf m <;> simp [scored]
    rw [Measured.prepend, listed]
    exact .scored (List.forall_mem_cons.mpr ⟨positive, others⟩)

theorem measure_spec (signature : α → Signature) (args : List Value) (candidates : List α)
    (same : SameAnswers r memo memo') :
    MeasuredAs (fun c => callScore r memo args (signature c)) candidates
      (measure r signature args candidates memo').1 := by
  induction candidates generalizing memo' with
  | nil => exact .scored nofun
  | cons m rest ih =>
    unfold measure
    split
    · next applicable =>
      obtain ⟨answer, after⟩ := score_sameAnswers (signature m) args same
      have own : callScore r memo args (signature m) = (score r (signature m) args memo').1 := by
        rw [callScore, if_pos applicable, answer]
      split
      · next memo'' scored =>
        rw [scored] at own after
        have tail := (ih after).cons (m := m) (by simp [own])
        rw [own, Option.map_none] at tail
        generalize (measure r signature args rest memo'').1 = measured at tail
        cases measured <;> exact tail
      · next memo'' scored =>
        rw [scored] at own
        exact .exact [] rest rfl own nofun
      · next n memo'' positive scored =>
        rw [scored] at own after
        have tail := (ih after).cons (m := m) (by simpa [own] using positive)
        rw [own, Option.map_some] at tail
        generalize measure r signature args rest memo'' = measured at tail
        obtain ⟨measured, memo₁⟩ := measured
        cases measured <;> exact tail
    · next inapplicable =>
      have own : callScore r memo args (signature m) = none := by
        rw [callScore, if_neg inapplicable]
      have tail := (ih same).cons (m := m) (by simp [own])
      rw [own, Option.map_none] at tail
      generalize (measure r signature args rest memo').1 = measured at tail
      cases measured <;> exact tail

/-- The head of a stable sort is the first of the lowest. -/
theorem mergeSort_head {scored : List (α × Nat)} {head : α × Nat} {rest : List (α × Nat)}
    (sorted : scored.mergeSort (fun a b => a.2 ≤ b.2) = head :: rest) :
    ∃ before after, scored = before ++ head :: after ∧ (∀ c ∈ before, head.2 < c.2) ∧
      ∀ c ∈ after, head.2 ≤ c.2 := by
  have trans : ∀ a b c : α × Nat, decide (a.2 ≤ b.2) → decide (b.2 ≤ c.2) → decide (a.2 ≤ c.2) := by
    intro a b c first second
    simp only [decide_eq_true_eq] at first second ⊢
    omega
  have total : ∀ a b : α × Nat, decide (a.2 ≤ b.2) || decide (b.2 ≤ a.2) := by
    intro a b
    simp only [Bool.or_eq_true, decide_eq_true_eq]
    omega
  induction scored generalizing rest with
  | nil => simp at sorted
  | cons a l ih =>
    obtain ⟨front, back, whole, others, higher⟩ := List.mergeSort_cons trans total a l
    rw [sorted] at whole
    cases front with
    | nil =>
      -- Nothing of the rest sorts before the first one.
      rw [List.nil_append, List.cons.injEq] at whole
      obtain ⟨rfl, rfl⟩ := whole
      refine ⟨[], l, rfl, nofun, ?_⟩
      intro c member
      have ordered := List.pairwise_mergeSort trans total (head :: l)
      rw [sorted, List.pairwise_cons] at ordered
      have inRest : c ∈ rest := by
        rw [List.nil_append] at others
        rw [← others]
        exact List.mem_mergeSort.mpr member
      simpa using ordered.1 c inRest
    | cons b front =>
      rw [List.cons_append, List.cons.injEq] at whole
      obtain ⟨rfl, rfl⟩ := whole
      obtain ⟨before, after, split, earlier, later⟩ := ih others
      refine ⟨a :: before, after, by rw [split, List.cons_append], ?_, later⟩
      intro c member
      rcases List.mem_cons.mp member with rfl | old
      · simpa using higher head List.mem_cons_self
      · exact earlier c old

/-- The first of the lowest among the scored candidates is the first of the lowest among all. -/
theorem firstMinimal_of_scored {before after : List (α × Nat)} {n : Nat}
    (split : candidates.filterMap (fun c => (scoreOf c).map (fun n => (c, n))) =
      before ++ (m, n) :: after)
    (earlier : ∀ c ∈ before, n < c.2) (later : ∀ c ∈ after, n ≤ c.2) :
    FirstMinimal scoreOf candidates m := by
  have listed : ∀ {l : List α} {c k}, c ∈ l → scoreOf c = some k →
      (c, k) ∈ l.filterMap (fun c => (scoreOf c).map (fun n => (c, n))) := by
    intro l c k member scored
    exact List.mem_filterMap.mpr ⟨c, member, by simp [scored]⟩
  obtain ⟨front, back, rfl, beforeListed, rest⟩ := List.filterMap_eq_append_iff.mp split
  obtain ⟨skipped, c, tail, rfl, unscored, own, afterListed⟩ := List.filterMap_eq_cons_iff.mp rest
  obtain ⟨k, scored, same⟩ := Option.map_eq_some_iff.mp own
  cases same
  refine ⟨front ++ skipped, tail, n, by simp, scored, ?_, ?_⟩
  · intro c member k scored
    rcases List.mem_append.mp member with inFront | inSkipped
    · exact earlier (c, k) (beforeListed ▸ listed inFront scored)
    · have none := unscored c inSkipped
      simp [scored] at none
  · intro c member k scored
    exact later (c, k) (afterListed ▸ listed member scored)

/-- Selection finds the earliest candidate of the lowest score, or that there is none. -/
theorem select_spec (r : Registry) (signature : α → Signature) (name : String) (candidates : List α)
    (args : List Value) (memo : Memo) :
    (∃ m, (select r signature name candidates args memo).1 = some m ∧
      FirstMinimal (fun c => callScore r memo args (signature c)) candidates m) ∨
    ((select r signature name candidates args memo).1 = none ∧
      ∀ c ∈ candidates, callScore r memo args (signature c) = none) := by
  have measured := measure_spec signature args candidates (SameAnswers.refl r memo)
  unfold select
  generalize measure r signature args candidates memo = result at measured
  obtain ⟨result, memo'⟩ := result
  cases measured with
  | exact before after split zero earlier =>
    refine Or.inl ⟨_, rfl, before, after, 0, split, zero, ?_, fun c _ k _ => Nat.zero_le k⟩
    intro c member k scored
    exact Nat.pos_of_ne_zero fun zero => earlier c member (scored.trans (congrArg some zero))
  | scored positive =>
    dsimp only
    split
    · next sorted =>
      refine Or.inr ⟨rfl, ?_⟩
      have empty := List.mergeSort_perm (candidates.filterMap
        (fun c => (callScore r memo args (signature c)).map (fun n => (c, n)))) (fun a b => a.2 ≤
          b.2)
      rw [sorted, List.nil_perm, List.filterMap_eq_nil_iff] at empty
      intro c member
      simpa using empty c member
    · next m n sorted =>
      obtain ⟨before, after, split, earlier, later⟩ := mergeSort_head sorted
      exact Or.inl ⟨m, rfl, firstMinimal_of_scored split earlier later⟩
    · next m n _ _ _ sorted =>
      obtain ⟨before, after, split, earlier, later⟩ := mergeSort_head sorted
      exact Or.inl ⟨m, rfl, firstMinimal_of_scored split earlier later⟩

/-- What overload choice promises, whatever the members are. -/
structure ChoosesClosest (signature : α → Signature) (scoreOf : α → Option Nat)
    (candidates : List α) (args : List Value) (absent noMatch : BridgeError)
    (chosen : Except BridgeError α) : Prop where
  parameterless : args = [] → ∀ before m after, candidates = before ++ m :: after →
    (signature m).params = [] →
    (∀ c ∈ before, (signature c).params ≠ []) → chosen = .ok m
  nothing : candidates = [] → chosen = .error absent
  sole : ∀ only, candidates = [only] → chosen = .ok only
  closest : 2 ≤ candidates.length → (args = [] → ∀ c ∈ candidates, (signature c).params ≠ []) →
    ∀ m, chosen = .ok m ↔ FirstMinimal scoreOf candidates m
  unmatched : 2 ≤ candidates.length → (args = [] → ∀ c ∈ candidates, (signature c).params ≠ []) →
    (chosen = .error noMatch ↔ ∀ c ∈ candidates, scoreOf c = none)

/-- Where neither shortcut applies, the choice is the selection. -/
theorem choose_several {name : String} {absent noMatch : BridgeError}
    (length : 2 ≤ candidates.length)
    (notImmediate : args = [] → ∀ c ∈ candidates, (signature c).params ≠ []) :
    (choose r signature name candidates args absent noMatch memo).1 =
      (select r signature name candidates args memo).1.elim (.error noMatch) .ok := by
  have immediate :
      (if args.isEmpty then candidates.find? (fun m => (signature m).params.isEmpty) else none) =
      none := by
    split
    · next empty =>
      rw [List.find?_eq_none]
      simpa using notImmediate (List.isEmpty_iff.mp empty)
    · rfl
  obtain ⟨first, second, rest, rfl⟩ :
      ∃ first second rest, candidates = first :: second :: rest := by
    cases candidates with
    | nil => simp at length
    | cons first others =>
      cases others with
      | nil => simp at length
      | cons second rest => exact ⟨first, second, rest, rfl⟩
  simp only [choose, immediate]
  generalize select r signature name (first :: second :: rest) args memo = selected
  obtain ⟨m, events, memo'⟩ := selected
  cases m <;> rfl

theorem choose_closest (r : Registry) (signature : α → Signature) (name : String)
    (candidates : List α) (args : List Value) (absent noMatch : BridgeError) (memo : Memo) :
    ChoosesClosest signature (fun c => callScore r memo args (signature c)) candidates args
      absent noMatch
      (choose r signature name candidates args absent noMatch memo).1 := by
  constructor
  case parameterless =>
    rintro rfl before m after rfl bare earlier
    have found : (before ++ m :: after).find? (fun m => (signature m).params.isEmpty) = some m := by
      rw [List.find?_append, List.find?_eq_none.mpr (by simpa using earlier), List.find?_cons_of_pos
        (by simp [bare])]
      rfl
    simp only [choose, List.isEmpty_nil, if_true, found]
  case nothing =>
    rintro rfl
    simp only [choose, List.find?_nil, ite_self]
  case sole =>
    rintro only rfl
    cases empty : args.isEmpty <;> cases bare : (signature only).params.isEmpty <;>
      simp [choose, empty, bare]
  case closest =>
    intro length notImmediate m
    rw [choose_several length notImmediate]
    rcases select_spec r signature name candidates args memo with ⟨m', selected, minimal⟩ |
      ⟨selected, none⟩
    · rw [selected]
      constructor
      · intro same
        cases same
        exact minimal
      · intro minimal'
        rw [minimal.unique minimal']
        rfl
    · rw [selected]
      constructor
      · intro same
        cases same
      · rintro ⟨before, after, n, split, scored, _⟩
        have listed : m ∈ candidates := by simp [split]
        cases (none m listed).symm.trans scored
  case unmatched =>
    intro length notImmediate
    rw [choose_several length notImmediate]
    rcases select_spec r signature name candidates args memo with ⟨m, selected, minimal⟩ |
      ⟨selected, none⟩
    · rw [selected]
      constructor
      · intro same
        cases same
      · intro unscored
        obtain ⟨before, after, n, split, scored, _⟩ := minimal
        have listed : m ∈ candidates := by simp [split]
        cases (unscored m listed).symm.trans scored
    · rw [selected]
      exact ⟨fun _ => none, fun _ => rfl⟩

/-- There is a choice, none of the candidates is taken at once, and none takes the arguments. -/
structure Unmatched (signature : α → Signature) (scoreOf : α → Option Nat) (candidates : List α)
    (args : List Value) : Prop where
  several : 2 ≤ candidates.length
  notImmediate : args = [] → ∀ c ∈ candidates, (signature c).params ≠ []
  unscored : ∀ c ∈ candidates, scoreOf c = none

/-- The three ways in which a choice ends. -/
inductive ChoiceOutcome (signature : α → Signature) (scoreOf : α → Option Nat) (candidates : List α)
    (args : List Value) (absent noMatch : BridgeError) : Except BridgeError α → Prop where
  | absent (none : candidates = []) :
      ChoiceOutcome signature scoreOf candidates args absent noMatch (.error absent)
  | unmatched (unmatched : Unmatched signature scoreOf candidates args) :
      ChoiceOutcome signature scoreOf candidates args absent noMatch (.error noMatch)
  | chosen (m : α) (member : m ∈ candidates)
      (matched : ¬Unmatched signature scoreOf candidates args) :
      ChoiceOutcome signature scoreOf candidates args absent noMatch (.ok m)

section

variable {absent noMatch e : BridgeError} {result : Except BridgeError α}

theorem ChoiceOutcome.absent_iff (different : absent ≠ noMatch)
    (outcome : ChoiceOutcome signature scoreOf candidates args absent noMatch result) :
    result = .error absent ↔ candidates = [] := by
  cases outcome with
  | absent none => simp [none]
  | unmatched unmatched =>
    have several := unmatched.several
    have some : candidates ≠ [] := by rintro rfl; cases several
    simp [different.symm, some]
  | chosen m member _ => simp [List.ne_nil_of_mem member]

theorem ChoiceOutcome.noMatch_iff (different : absent ≠ noMatch)
    (outcome : ChoiceOutcome signature scoreOf candidates args absent noMatch result) :
    result = .error noMatch ↔ Unmatched signature scoreOf candidates args := by
  cases outcome with
  | absent none =>
    have few : ¬Unmatched signature scoreOf candidates args := by
      intro unmatched
      have several := unmatched.several
      rw [none] at several
      cases several
    simp [different, few]
  | unmatched unmatched => simp [unmatched]
  | chosen m _ matched => simp [matched]

theorem ChoiceOutcome.not_error (notAbsent : e ≠ absent) (notNoMatch : e ≠ noMatch)
    (outcome : ChoiceOutcome signature scoreOf candidates args absent noMatch result) :
    result ≠ .error e := by
  cases outcome with
  | absent _ => simpa using notAbsent.symm
  | unmatched _ => simpa using notNoMatch.symm
  | chosen m _ _ => simp

theorem ChoiceOutcome.ok_or_error
    (outcome : ChoiceOutcome signature scoreOf candidates args absent noMatch result) :
    (∃ m ∈ candidates, result = .ok m) ∨ result = .error absent ∨ result = .error noMatch := by
  cases outcome with
  | absent _ => exact Or.inr (Or.inl rfl)
  | unmatched _ => exact Or.inr (Or.inr rfl)
  | chosen m member _ => exact Or.inl ⟨m, member, rfl⟩

end

/-- A choice ends in one of the three ways, and the candidates say in which. -/
theorem choose_outcome (r : Registry) (signature : α → Signature) (name : String)
    (candidates : List α) (args : List Value) (absent noMatch : BridgeError) (memo : Memo) :
    ChoiceOutcome signature (fun c => callScore r memo args (signature c)) candidates args absent
      noMatch (choose r signature name candidates args absent noMatch memo).1 := by
  have closest := choose_closest r signature name candidates args absent noMatch memo
  by_cases immediate : args = [] ∧ ∃ c ∈ candidates, (signature c).params = []
  · obtain ⟨empty, c, member, bare⟩ := immediate
    have some : (candidates.find? (fun c => (signature c).params.isEmpty)).isSome :=
      List.find?_isSome.mpr ⟨c, member, by simp [bare]⟩
    obtain ⟨m, found⟩ := Option.isSome_iff_exists.mp some
    obtain ⟨isBare, before, after, split, earlier⟩ := List.find?_eq_some_iff_append.mp found
    rw [closest.parameterless empty before m after split (by simpa using isBare)
      (by simpa using earlier)]
    refine .chosen m (by simp [split]) ?_
    exact fun unmatched => unmatched.notImmediate empty c member bare
  have notImmediate : args = [] → ∀ c ∈ candidates, (signature c).params ≠ [] :=
    fun empty c member bare => immediate ⟨empty, c, member, bare⟩
  have number : candidates.length = 0 ∨ candidates.length = 1 ∨ 2 ≤ candidates.length := by omega
  rcases number with none | one | several
  · obtain rfl := List.length_eq_zero_iff.mp none
    rw [closest.nothing rfl]
    exact .absent rfl
  · obtain ⟨only, rfl⟩ := List.length_eq_one_iff.mp one
    rw [closest.sole only rfl]
    refine .chosen only (List.mem_singleton_self only) fun unmatched => ?_
    have several := unmatched.several
    omega
  · rw [choose_several several notImmediate]
    rcases select_spec r signature name candidates args memo with
      ⟨m, selected, before, after, n, split, scored, _⟩ | ⟨selected, unscored⟩
    · rw [selected]
      have member : m ∈ candidates := by simp [split]
      refine .chosen m member fun unmatched => ?_
      cases (unmatched.unscored m member).symm.trans scored
    · rw [selected]
      exact .unmatched ⟨several, notImmediate, unscored⟩

/-- Methods and constructors are chosen alike: without arguments the first that takes none, or else
the only one there is, or else the earliest of the lowest score. Having no candidate at all is
reported as such, and as no match only that none of several can be called. -/
theorem overload_choice (r : Registry) (type : TypeId) (name : String) (args : List Value)
    (onInstance : Bool) (memo : Memo) :
    ChoosesClosest Method.signature (fun m => callScore r memo args m.signature)
      ((r.methods type).filter (fun m => m.name == name && (onInstance || m.isStatic))) args
      (if r.hasRestrictedMethod type name then .accessFailure (.method name (r.typeName type))
        else .notFound (.method name (r.typeName type)))
      (.noMatch ("method " ++ r.typeName type ++ "." ++ name) (describeArguments r args))
      (chooseMethod r type name args onInstance memo).1 ∧
    ChoosesClosest Constructor.signature (fun c => callScore r memo args c.signature)
      (r.constructors type) args
      (if r.hasRestrictedConstructor type then .accessFailure (.constructors (r.typeName type))
        else .notFound (.constructor (r.typeName type)))
      (.noMatch ("constructor of " ++ r.typeName type) (describeArguments r args))
      (chooseConstructor r type args memo).1 :=
  ⟨choose_closest r Method.signature name _ args _ _ memo,
    choose_closest r Constructor.signature _ _ args _ _ memo⟩

/-- An unknown method has no candidate, so none that can be called, and still this is not a failed
match. -/
theorem unknown_method_not_unmatched :
    (∀ m ∈ methodCandidates .initial .object "missing" true,
      callScore .initial (.empty true) [] m.signature = none) ∧
      ∀ member arguments,
        (chooseMethod .initial .object "missing" [] true (.empty true)).1 ≠
          .error (.noMatch member arguments) := by
  have nothing : methodCandidates .initial .object "missing" true = [] := by decide
  refine ⟨by simp [nothing], ?_⟩
  intro member arguments
  simp only [chooseMethod, nothing, choose, List.find?_nil, ite_self]
  split <;> simp

end Interop.Overload
