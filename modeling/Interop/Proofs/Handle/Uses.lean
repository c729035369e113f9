import Interop.Proofs.Handle.Identity

/-!
What becomes of a handle over time. Besides wrapping, viewing, copying, dropping and releasing,
handles are shown under other types, and the first call through a super view takes its super call.
A history of such uses tells which super calls are still waiting: those of the super views that were
made and not taken since. No other use gives a handle a super call or takes one away.
-/
namespace Interop.HandleTable

variable {t t' t'' : HandleTable} {id other : HandleId} {h : Handle}

inductive Use where
  | operate (operation : Operation)
  | setView (id : HandleId) (view : TypeId)
  | take (id : HandleId)
  | purge

def Use.apply (t : HandleTable) : Use → HandleTable
  | operate operation => operation.apply t
  | setView id view => t.setView id view
  | take id => (t.takeSuperCall id).2
  | purge => t.purge.2

/-- The table after some uses, of which the latest comes first. -/
def used (t : HandleTable) : List Use → HandleTable
  | [] => t
  | use :: earlier => use.apply (t.used earlier)

theorem used_append (t : HandleTable) (later earlier : List Use) :
    t.used (later ++ earlier) = (t.used earlier).used later := by
  induction later with
  | nil => rfl
  | cons use rest ih => exact congrArg (fun t => Use.apply t use) ih

/-- One table comes from the other by uses. -/
def Used (t t' : HandleTable) : Prop := ∃ uses, t' = t.used uses

theorem Used.refl (t : HandleTable) : Used t t := ⟨[], rfl⟩

theorem Used.trans (first : Used t t') (second : Used t' t'') : Used t t'' := by
  obtain ⟨earlier, rfl⟩ := first
  obtain ⟨later, rfl⟩ := second
  exact ⟨later ++ earlier, (used_append t later earlier).symm⟩

theorem used_apply (t : HandleTable) (use : Use) : Used t (use.apply t) := ⟨[use], rfl⟩

theorem used_foldl {change : HandleTable → HandleId → HandleTable}
    (step : ∀ t id, Used t (change t id)) (ids : List HandleId) (t : HandleTable) :
    Used t (ids.foldl change t) := by
  induction ids generalizing t with
  | nil => exact Used.refl t
  | cons id rest ih => exact (step t id).trans (ih _)

theorem used_retainAll (ids : List HandleId) (t : HandleTable) : Used t (ids.foldl retain t) :=
  used_foldl (fun t id => used_apply t (.operate (.clone id))) ids t

theorem used_dropAll (ids : List HandleId) (t : HandleTable) : Used t (ids.foldl drop t) :=
  used_foldl (fun t id => used_apply t (.operate (.drop id))) ids t

theorem handles_forget (t : HandleTable) (id : HandleId) : (t.forget id).handles = t.handles := by
  unfold forget
  split
  · rfl
  · split
    · rfl
    · split <;> rfl

theorem get?_forget (t : HandleTable) (id other : HandleId) :
    (t.forget id).get? other = t.get? other := by
  simp [get?, handles_forget]

theorem get?_drop (t : HandleTable) (id other : HandleId) :
    (t.drop id).get? other =
      (t.update id (fun h => { h with references := h.references - 1 })).get? other := by
  unfold drop
  dsimp only
  split
  · rfl
  · exact get?_forget _ id other

theorem get?_add_new (t : HandleTable) (new : Handle) :
    (t.add new).2.get? ⟨t.handles.length⟩ = some { new with references := 1 } := by
  simp [add, get?]

/-- Besides the handles that were there, a table that one is added to has that one only. -/
theorem get?_add_of_none {new : Handle} (absent : t.get? id = none)
    (found : (t.add new).2.get? id = some h) :
    id = ⟨t.handles.length⟩ ∧ h = { new with references := 1 } := by
  have beyond : t.handles.length ≤ id.index := List.getElem?_eq_none_iff.mp absent
  have inRange : id.index < (t.add new).2.handles.length := (List.getElem?_eq_some_iff.mp found).1
  simp only [add, List.length_append, List.length_singleton] at inRange
  obtain ⟨index⟩ := id
  have last : index = t.handles.length := by
    simp only at beyond inRange
    omega
  subst last
  rw [get?_add_new] at found
  exact ⟨rfl, (Option.some.inj found).symm⟩

/-- A handle after a change that concerns neither its dispatcher nor its super call. -/
theorem get?_update_kept {change : Handle → Handle} (found : t.get? id = some h)
    (dispatcher : ∀ h, (change h).dispatcher = h.dispatcher)
    (superCall : id = other → ∀ h, (change h).superCall = h.superCall) :
    ∃ h', (t.update other change).get? id = some h' ∧ h'.dispatcher = h.dispatcher ∧
      h'.superCall = h.superCall := by
  rw [get?_update, found]
  split
  · next same => exact ⟨change h, rfl, dispatcher h, superCall same h⟩
  · exact ⟨h, rfl, rfl, rfl⟩

/-- A use leaves the super call of every handle, unless it takes it. -/
theorem get?_apply (use : Use) (found : t.get? id = some h) (notTaken : use ≠ .take id) :
    ∃ h', (use.apply t).get? id = some h' ∧ h'.dispatcher = h.dispatcher ∧
      h'.superCall = h.superCall := by
  have same : ∃ h', t.get? id = some h' ∧ h'.dispatcher = h.dispatcher ∧
      h'.superCall = h.superCall := ⟨h, found, rfl, rfl⟩
  have added : ∀ new, ∃ h', (t.add new).2.get? id = some h' ∧ h'.dispatcher = h.dispatcher ∧
      h'.superCall = h.superCall := fun new => ⟨h, get?_add found new, rfl, rfl⟩
  have retained : ∀ other, ∃ h', (t.retain other).get? id = some h' ∧
      h'.dispatcher = h.dispatcher ∧ h'.superCall = h.superCall :=
    fun other => get?_update_kept found (fun _ => rfl) (fun _ _ => rfl)
  cases use with
  | operate operation =>
    cases operation with
    | wrap target view dispatcher =>
      simp only [Use.apply, Operation.apply, wrap]
      split
      · exact retained _
      · exact added _
    | superView source =>
      simp only [Use.apply, Operation.apply, superView]
      split
      · exact same
      · split
        · exact added _
        · exact retained _
    | clone source => exact retained source
    | drop source =>
      simp only [Use.apply, Operation.apply, get?_drop]
      exact get?_update_kept found (fun _ => rfl) (fun _ _ => rfl)
    | release source =>
      simp only [Use.apply, Operation.apply, get?_forget]
      exact same
  | setView source view => exact get?_update_kept found (fun _ => rfl) (fun _ _ => rfl)
  | take source =>
    have different : id ≠ source := fun same => notTaken (congrArg Use.take same.symm)
    simp only [Use.apply, takeSuperCall]
    split
    · exact get?_update_kept found (fun _ => rfl) (fun same => absurd same different)
    · exact same
  | purge => exact same

theorem get?_take (found : t.get? id = some h) :
    ((Use.take id).apply t).get? id = some { h with superCall := false } := by
  simp [Use.apply, takeSuperCall, found, get?_update]

/-- Nothing is taken from a handle without a super call. -/
theorem take_of_spent (found : t.get? id = some h) (spent : h.superCall = false) :
    (Use.take id).apply t = t := by
  have same : t.handles.modify id.index (fun h => { h with superCall := false }) = t.handles := by
    apply List.ext_getElem?
    intro i
    rw [List.getElem?_modify]
    by_cases here : id.index = i
    · have there : t.handles[i]? = some h := here ▸ found
      simp [here, there, ← spent]
    · simp [here]
  simp [Use.apply, takeSuperCall, found, update, same]

/-- A handle that is new waits for a super call only if it is a super view. -/
theorem superView_of_new {use : Use} (absent : t.get? id = none)
    (found : (use.apply t).get? id = some h) (waits : h.superCall = true) :
    ∃ source s, use = .operate (.superView source) ∧ t.get? source = some s ∧
      s.dispatcher.isSome = true ∧ id = (t.superView source).1 := by
  have updated : ∀ {source change}, (t.update source change).get? id = none := by
    intro source change
    rw [get?_update, absent]
    split <;> rfl
  cases use with
  | operate operation =>
    cases operation with
    | wrap target view dispatcher =>
      simp only [Use.apply, Operation.apply, wrap] at found
      split at found
      · rw [retain, updated] at found
        cases found
      · obtain ⟨_, rfl⟩ := get?_add_of_none absent found
        cases waits
    | superView source =>
      cases there : t.get? source with
      | none =>
        simp only [Use.apply, Operation.apply, superView, there, absent] at found
        cases found
      | some s =>
        cases overridden : s.dispatcher.isSome with
        | false =>
          simp only [Use.apply, Operation.apply, superView, there, overridden, retain,
            Bool.false_eq_true, if_false, updated] at found
          cases found
        | true =>
          simp only [Use.apply, Operation.apply, superView, there, overridden, if_true] at found
          obtain ⟨rfl, _⟩ := get?_add_of_none absent found
          refine ⟨source, s, rfl, there, overridden, ?_⟩
          simp [superView, there, overridden, add]
    | clone source =>
      simp only [Use.apply, Operation.apply, retain, updated] at found
      cases found
    | drop source =>
      simp only [Use.apply, Operation.apply, get?_drop, updated] at found
      cases found
    | release source =>
      simp only [Use.apply, Operation.apply, get?_forget, absent] at found
      cases found
  | setView source view =>
    simp only [Use.apply, setView, updated] at found
    cases found
  | take source =>
    simp only [Use.apply, takeSuperCall] at found
    split at found
    · rw [updated] at found
      cases found
    · rw [absent] at found
      cases found
  | purge =>
    have same : t.get? id = some h := found
    rw [absent] at same
    cases same

variable {history : List Use}

/-- The handle was made as a super view of one with overrides, and its super call has not been taken
since. -/
inductive Waiting : List Use → HandleId → Prop where
  | made {source : HandleId} {s : Handle} {earlier : List Use}
      (found : (empty.used earlier).get? source = some s)
      (overridden : s.dispatcher.isSome = true) :
      Waiting (.operate (.superView source) :: earlier) ((empty.used earlier).superView source).1
  | kept {use : Use} {earlier : List Use} {id : HandleId} (before : Waiting earlier id)
      (notTaken : use ≠ .take id) : Waiting (use :: earlier) id

theorem superView_new {source : HandleId} {s : Handle} (found : t.get? source = some s)
    (overridden : s.dispatcher.isSome = true) :
    t.superView source = t.add { s with superCall := true } := by
  simp [superView, found, overridden]

theorem Waiting.pending (waiting : Waiting history id) :
    ∃ h, (empty.used history).get? id = some h ∧ h.superCall = true ∧
      h.dispatcher.isSome = true := by
  induction waiting with
  | @made source s earlier found overridden =>
    refine ⟨{ s with superCall := true, references := 1 }, ?_, rfl, overridden⟩
    simp only [used, Use.apply, Operation.apply, superView_new found overridden]
    exact get?_add_new _ _
  | kept before notTaken ih =>
    obtain ⟨h, found, superCall, overridden⟩ := ih
    obtain ⟨h', found', dispatcher, same⟩ := get?_apply _ found notTaken
    exact ⟨h', found', same.trans superCall, by rw [dispatcher]; exact overridden⟩

/-- To take a super call is no matter for the others. -/
theorem waiting_take_iff :
    Waiting (.take id :: history) other ↔ Waiting history other ∧ other ≠ id := by
  constructor
  · intro waiting
    cases waiting with
    | kept before notTaken => exact ⟨before, fun same => notTaken (congrArg Use.take same.symm)⟩
  · rintro ⟨before, different⟩
    exact .kept before fun same => different (Use.take.inj same).symm

theorem waiting_of_superCall (found : (empty.used history).get? id = some h)
    (superCall : h.superCall = true) : Waiting history id := by
  induction history generalizing h with
  | nil => cases found
  | cons use earlier ih =>
    cases before : (empty.used earlier).get? id with
    | none =>
      obtain ⟨source, s, rfl, there, overridden, rfl⟩ := superView_of_new before found superCall
      exact .made there overridden
    | some old =>
      have notTaken : use ≠ .take id := by
        rintro rfl
        have taken : (empty.used (.take id :: earlier)).get? id = _ := get?_take before
        cases found.symm.trans taken
        cases superCall
      obtain ⟨h', found', _, same⟩ := get?_apply use before notTaken
      cases found.symm.trans found'
      exact .kept (ih before (same.symm.trans superCall)) notTaken

/-- The flag of a handle says whether its super call waits. -/
theorem superCall_iff (found : (empty.used history).get? id = some h) :
    h.superCall = true ↔ Waiting history id := by
  constructor
  · exact waiting_of_superCall found
  · intro waiting
    obtain ⟨h', found', superCall, _⟩ := waiting.pending
    cases found.symm.trans found'
    exact superCall

/-- A handle that is there stays, with its dispatcher. -/
theorem get?_used (found : t.get? id = some h) (uses : List Use) :
    ∃ h', (t.used uses).get? id = some h' ∧ h'.dispatcher = h.dispatcher := by
  induction uses with
  | nil => exact ⟨h, found, rfl⟩
  | cons use earlier ih =>
    obtain ⟨h₁, found₁, dispatcher⟩ := ih
    by_cases taken : use = .take id
    · subst taken
      exact ⟨_, get?_take found₁, dispatcher⟩
    · obtain ⟨h₂, found₂, same, _⟩ := get?_apply use found₁ taken
      exact ⟨h₂, found₂, same.trans dispatcher⟩

/-- From then on the super call of a handle waits as long as it has not been taken, and once it has
been taken it never waits again. -/
theorem waiting_append_iff (found : (empty.used history).get? id = some h) (uses : List Use) :
    Waiting (uses ++ history) id ↔ Waiting history id ∧ .take id ∉ uses := by
  induction uses with
  | nil => simp
  | cons use earlier ih =>
    rw [List.cons_append]
    constructor
    · intro waiting
      cases waiting with
      | @made source s _ there overridden =>
        -- The super view is new, and the handle is not.
        obtain ⟨h', present, _⟩ := get?_used found earlier
        rw [← used_append, superView_new there overridden] at present
        have inRange := (List.getElem?_eq_some_iff.mp present).1
        exact absurd inRange (Nat.lt_irrefl _)
      | kept before notTaken =>
        obtain ⟨waited, untouched⟩ := ih.mp before
        refine ⟨waited, ?_⟩
        rw [List.mem_cons, not_or]
        exact ⟨fun same => notTaken same.symm, untouched⟩
    · rintro ⟨waited, untouched⟩
      rw [List.mem_cons, not_or] at untouched
      exact .kept (ih.mpr ⟨waited, untouched.2⟩) (fun same => untouched.1 same.symm)

end Interop.HandleTable
