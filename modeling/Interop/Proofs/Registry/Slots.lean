import Mathlib.Logic.Function.Basic
import Interop.Registry.Definition
import Interop.Registry.Generated

/-!
What each update of the table of types does to the slots, read back through `get?`, and the order in
which a registry extends another: every type that is there stays there as it is.
-/
namespace Interop

/-- A key that is removed is not found, and nothing else changes. -/
theorem lookup_filter_ne {α β : Type} [BEq α] [LawfulBEq α] (removed key : α)
    (entries : List (α × β)) :
    (entries.filter (fun entry => entry.1 != removed)).lookup key =
      if key == removed then none else entries.lookup key := by
  induction entries with
  | nil => simp
  | cons entry rest ih =>
    obtain ⟨other, value⟩ := entry
    by_cases gone : other = removed
    · subst gone
      rw [List.filter_cons_of_neg (by simp), ih, List.lookup_cons]
      by_cases same : key = other
      · simp [same]
      · simp [beq_eq_false_iff_ne.mpr same]
    · rw [List.filter_cons_of_pos (by simp [gone]), List.lookup_cons, List.lookup_cons, ih]
      by_cases same : key = other
      · subst same
        simp [gone]
      · simp [beq_eq_false_iff_ne.mpr same]

theorem TypeId.eq_of_index {a b : TypeId} (same : a.index = b.index) : a = b := by
  cases a
  cases b
  exact congrArg TypeId.mk same

namespace Registry

variable {r r' r'' : Registry} {i id : TypeId} {t : TypeInfo}

/-- Every type of `r` is a type of `r'`, in the same slot and unchanged. -/
def Extends (r r' : Registry) : Prop := ∀ ⦃i t⦄, r.get? i = some t → r'.get? i = some t

theorem Extends.refl (r : Registry) : Extends r r := fun _ _ found => found

theorem Extends.trans (first : Extends r r') (second : Extends r' r'') : Extends r r'' :=
  fun _ _ found => second (first found)

/-- The slot is handed out and holds no type yet. -/
structure Reserved (r : Registry) (id : TypeId) : Prop where
  inRange : id.index < r.slots.length
  empty : r.get? id = none
  taken : id ∉ r.free

theorem Reserved.ne_of_live {id : TypeId} (slot : Reserved r id) (found : r.get? i = some t) :
    i ≠ id := by
  rintro rfl
  rw [slot.empty] at found
  cases found

theorem inRange_of_get? (found : r.get? i = some t) : i.index < r.slots.length := by
  by_contra outside
  have absent : r.slots[i.index]? = none := List.getElem?_eq_none (Nat.le_of_not_gt outside)
  simp [get?, absent] at found

theorem require_ok (success : r.require i = .ok t) : r.get? i = some t := by
  unfold require at success
  split at success
  · next found =>
    cases success
    exact found
  · cases success

theorem get?_fill_self (inRange : t.id.index < r.slots.length) : (r.fill t).get? t.id = some t := by
  simp [get?, fill, inRange]

theorem get?_fill_other (different : i ≠ t.id) : (r.fill t).get? i = r.get? i := by
  have indices : t.id.index ≠ i.index := fun same => different (TypeId.eq_of_index same.symm)
  simp [get?, fill, indices]

theorem get?_fill (inRange : t.id.index < r.slots.length) (i : TypeId) :
    (r.fill t).get? i = if i = t.id then some t else r.get? i := by
  split
  · next same =>
    rw [same]
    exact get?_fill_self inRange
  · next different => exact get?_fill_other different

theorem fill_length (r : Registry) (t : TypeInfo) : (r.fill t).slots.length = r.slots.length := by
  simp [fill]

/-- A type that goes into an empty slot takes nothing away. -/
theorem extends_fill (empty : r.get? t.id = none) : Extends r (r.fill t) := by
  intro i type found
  have different : i ≠ t.id := by
    rintro rfl
    rw [empty] at found
    cases found
  rw [get?_fill_other different]
  exact found

/-- Emptying slots one after the other. -/
theorem emptied_getElem? (doomed : List TypeId) (slots : List (Option TypeInfo)) (i : TypeId) :
    ((doomed.foldl (fun slots d => slots.set d.index none) slots)[i.index]?).join =
      if i ∈ doomed then none else (slots[i.index]?).join := by
  induction doomed generalizing slots with
  | nil => simp
  | cons d rest ih =>
    rw [List.foldl_cons, ih]
    by_cases later : i ∈ rest
    · simp [later]
    · by_cases same : i = d
      · subst same
        by_cases inRange : i.index < slots.length <;> simp [inRange]
      · have indices : d.index ≠ i.index := fun equal => same (TypeId.eq_of_index equal.symm)
        simp [later, same, indices]

theorem emptied_length (doomed : List TypeId) (slots : List (Option TypeInfo)) :
    (doomed.foldl (fun slots d => slots.set d.index none) slots).length = slots.length := by
  induction doomed generalizing slots with
  | nil => rfl
  | cons d rest ih => simp [ih]

/-- A reservation changes no type and no index. -/
theorem reserve_frame (r : Registry) :
    (∀ i, r.reserve.2.get? i = r.get? i) ∧ r.reserve.2.names = r.names ∧
      r.reserve.2.arrays = r.arrays ∧
      r.reserve.2.subclasses = r.subclasses ∧ r.reserve.2.implementations = r.implementations ∧
      r.reserve.2.pending = r.pending := by
  unfold reserve
  split
  · exact ⟨fun _ => rfl, rfl, rfl, rfl, rfl, rfl⟩
  · refine ⟨fun i => ?_, rfl, rfl, rfl, rfl, rfl⟩
    by_cases inRange : i.index < r.slots.length
    · simp [get?, List.getElem?_append_left inRange]
    · have absent : r.slots[i.index]? = none := List.getElem?_eq_none (Nat.le_of_not_gt inRange)
      by_cases last : i.index = r.slots.length
      · simp [get?, last]
      · have beyond : (r.slots ++ [none])[i.index]? = none :=
          List.getElem?_eq_none (by simp; omega)
        simp [get?, absent, beyond]

theorem extends_reserve (r : Registry) : Extends r r.reserve.2 := by
  intro i t found
  rw [(reserve_frame r).1]
  exact found

theorem install_ok (success : r.install t = .ok r') :
    r.named? t.name = none ∧ r' = { r.fill t with names := (t.name, t.id) :: r.names } := by
  unfold install at success
  split at success
  · cases success
  · next free =>
    cases success
    exact ⟨free, rfl⟩

theorem named?_cons (name other : String) (i : TypeId) :
    ({ r with names := (name, i) :: r.names }).named? other =
      if other = name then some i else r.named? other := by
  simp only [named?, List.lookup_cons]
  by_cases same : other = name
  · simp [same]
  · simp [same, beq_eq_false_iff_ne.mpr same]

end Registry

end Interop
