import Mathlib.Data.Finset.Card
import Mathlib.Data.Finset.Lattice.Fold
import Mathlib.Data.Finset.Range
import Interop.Proofs.Registry.First

/-!
Ranks: a type ranks above all it is made of. A registry with ranks has no type that inherits from
itself and no array that is nested in itself.

Ranks say nothing about how deep types are nested until they are bounded. Counting the slots of
lower rank gives ranks below the number of slots, and with them every search that goes from a type
to what it is made of ends within that number of steps.
-/
namespace Interop.Registry

variable {r r' : Registry} {rank : TypeId → Nat} {i j : TypeId} {t : TypeInfo}

def Ranked (r : Registry) (rank : TypeId → Nat) : Prop :=
  ∀ ⦃i t⦄, r.get? i = some t → ∀ j ∈ t.parents, rank j < rank i

theorem Ranked.congr (before : Ranked r rank) (same : ∀ i, r'.get? i = r.get? i) :
    Ranked r' rank := by
  intro i t found
  rw [same] at found
  exact before found

theorem ranked_initial : Ranked initial TypeId.index := by
  have all : firstTypes.all (fun t => t.parents.all (fun j => j.index < t.id.index)) = true := by
    decide
  intro i t found j member
  obtain ⟨first, rfl⟩ := initial_get?_iff.mp found
  have below := List.all_eq_true.mp (List.all_eq_true.mp all t first) j member
  simpa using below

theorem parents_subset_mentions (member : j ∈ t.parents) : j ∈ t.mentions :=
  List.mem_append_left _ member

/-- A new type may take any rank above all it is made of; the others keep theirs. -/
theorem Ranked.place (before : Ranked r rank) (coherent : Coherent r) (slot : Reserved r t.id)
    (waiting : Bool) (fits : Fits r t) (top : Nat) (above : ∀ j ∈ t.parents, rank j < top) :
    Ranked (r.place t waiting) (Function.update rank t.id top) := by
  intro i u found j member
  rw [get?_place slot] at found
  split at found
  · next same =>
    cases found
    obtain ⟨v, there⟩ := fits.mentions j (parents_subset_mentions member)
    rw [same, Function.update_self, Function.update_of_ne (slot.ne_of_live there)]
    exact above j member
  · next different =>
    obtain ⟨v, there⟩ := (coherent.fits found).mentions j (parents_subset_mentions member)
    rw [Function.update_of_ne different, Function.update_of_ne (slot.ne_of_live there)]
    exact before found j member

/-- Some number is above every rank in use. -/
theorem exists_rank_bound (r : Registry) (rank : TypeId → Nat) :
    ∃ bound, ∀ {i t}, r.get? i = some t → rank i < bound := by
  refine ⟨((Finset.range r.slots.length).sup (fun n => rank ⟨n⟩)) + 1, ?_⟩
  intro i t found
  have member : i.index ∈ Finset.range r.slots.length :=
    Finset.mem_range.mpr (inRange_of_get? found)
  exact Nat.lt_succ_of_le (Finset.le_sup (f := fun n => rank ⟨n⟩) member)

/-- The slots whose rank is lower. -/
def lowerSlots (r : Registry) (rank : TypeId → Nat) (i : TypeId) : Finset Nat :=
  (Finset.range r.slots.length).filter (fun n => rank ⟨n⟩ < rank i)

/-- The number of slots of lower rank is a rank, too, and less than the number of slots. -/
theorem Ranked.bounded (before : Ranked r rank) (coherent : Coherent r) :
    Ranked r (fun i => (lowerSlots r rank i).card) ∧
      ∀ {i t}, r.get? i = some t → (lowerSlots r rank i).card < r.slots.length := by
  constructor
  · intro i t found j member
    have lower := before found j member
    obtain ⟨u, there⟩ := (coherent.fits found).mentions j (parents_subset_mentions member)
    have within := inRange_of_get? there
    apply Finset.card_lt_card
    rw [Finset.ssubset_iff_of_subset]
    · refine ⟨j.index, ?_, ?_⟩
      · simpa [lowerSlots, within] using lower
      · simp [lowerSlots]
    · intro n
      simp only [lowerSlots, Finset.mem_filter, and_imp]
      intro inRange lowest
      exact ⟨inRange, Nat.lt_trans lowest lower⟩
  · intro i t found
    have within := inRange_of_get? found
    have fewer : lowerSlots r rank i ⊂ Finset.range r.slots.length := by
      unfold lowerSlots
      rw [Finset.ssubset_iff_of_subset (Finset.filter_subset _ _)]
      exact ⟨i.index, Finset.mem_range.mpr within, by simp⟩
    simpa using Finset.card_lt_card fewer

/-- Between operations: coherent, with nothing under definition, and without cycles. -/
structure Settled (r : Registry) : Prop where
  coherent : Coherent r
  ranked : ∃ rank, Ranked r rank
  idle : r.pending = []

theorem settled_initial : Settled initial :=
  ⟨coherent_initial, ⟨_, ranked_initial⟩, rfl⟩

/-- The root class inherits from nothing, so it may be given the lowest rank. -/
theorem Ranked.rootLowest (before : Ranked r rank) (coherent : Coherent r) :
    Ranked r (fun i => if i = .object then 0 else rank i + 1) := by
  intro i t found j member
  have notRoot : i ≠ .object := by
    rintro rfl
    rw [coherent.object.1] at found
    cases found
    exact absurd member List.not_mem_nil
  have lower := before found j member
  simp only [notRoot, if_false]
  split <;> omega

/-- Ranks can be taken below the number of slots, and the lowest for the root class. -/
theorem Ranked.bounded_root (ranked : Ranked r rank) (coherent : Coherent r) :
    ∃ rank, Ranked r rank ∧ (∀ {i}, i ≠ .object → rank .object < rank i) ∧
      ∀ {i t}, r.get? i = some t → rank i < r.slots.length := by
  have lowest := ranked.rootLowest coherent
  obtain ⟨bounded, within⟩ := lowest.bounded coherent
  refine ⟨_, bounded, ?_, within⟩
  intro i notRoot
  apply Finset.card_lt_card
  have rootSlot := inRange_of_get? coherent.object.1
  rw [Finset.ssubset_iff_of_subset]
  · refine ⟨TypeId.object.index, ?_, ?_⟩
    · simp [lowerSlots, rootSlot, notRoot]
    · simp [lowerSlots]
  · intro n
    simp [lowerSlots]

theorem Settled.bounded_rank (settled : Settled r) :
    ∃ rank, Ranked r rank ∧ (∀ {i}, i ≠ .object → rank .object < rank i) ∧
      ∀ {i t}, r.get? i = some t → rank i < r.slots.length := by
  obtain ⟨rank, ranked⟩ := settled.ranked
  exact ranked.bounded_root settled.coherent

end Interop.Registry
