import Mathlib.Data.List.Perm.Basic
import Interop.Handle.Recency

/-!
The cache as a list with the most recently used entry first. Stamps say in which order entries were
used; they are all different, so there is one such list, whatever order the entries are stored in.
Using a key moves it to the front, and what has to go for a new key is the last entry.
-/
namespace Interop

variable {α : Type}

namespace Recents

variable {m : List (String × α)} {key : String} {value : α}

/-- The entry of a key is moved to the front. -/
def use (key : String) (m : List (String × α)) : List (String × α) :=
  match m.lookup key with
  | none => m
  | some value => (key, value) :: m.filter (fun entry => entry.1 != key)

/-- The key that has to go for a key: the last one, if the list is full and the key is new. -/
def evicted? (capacity : Nat) (key : String) (m : List (String × α)) : Option String :=
  if (m.lookup key).isNone && capacity ≤ m.length then m.getLast?.map Prod.fst else none

/-- A value is stored at the front. -/
def store (capacity : Nat) (key : String) (value : α) (m : List (String × α)) :
    List (String × α) :=
  if (m.lookup key).isSome then (key, value) :: m.filter (fun entry => entry.1 != key)
  else if capacity ≤ m.length then (key, value) :: m.dropLast
  else (key, value) :: m

theorem mem_of_lookup (found : m.lookup key = some value) : (key, value) ∈ m := by
  obtain ⟨front, back, split, _⟩ := List.lookup_eq_some_iff.mp found
  simp [split]

theorem mem_of_mem_use {entry : String × α} (member : entry ∈ use key m) : entry ∈ m := by
  unfold use at member
  split at member
  · exact member
  · next value found =>
    rcases List.mem_cons.mp member with rfl | other
    · exact mem_of_lookup found
    · exact List.mem_of_mem_filter other

theorem mem_use (found : m.lookup key = some value) : (key, value) ∈ use key m := by
  simp [use, found]

theorem mem_store (capacity : Nat) (key : String) (value : α) (m : List (String × α)) :
    (key, value) ∈ store capacity key value m := by
  unfold store
  split
  · exact List.mem_cons_self
  · split <;> exact List.mem_cons_self

theorem of_mem_store {capacity : Nat} {entry : String × α}
    (member : entry ∈ store capacity key value m) : entry = (key, value) ∨ entry ∈ m := by
  unfold store at member
  split at member
  · exact (List.mem_cons.mp member).imp_right List.mem_of_mem_filter
  · split at member
    · exact (List.mem_cons.mp member).imp_right fun kept => (List.dropLast_sublist m).subset kept
    · exact List.mem_cons.mp member

end Recents

def Stamped.entry (e : Stamped α) : String × α := (e.key, e.value)

namespace RecencyCache

variable {c : RecencyCache α} {l es : List (Stamped α)} {e : Stamped α} {m : List (String × α)}
  {key : String} {value : α}

theorem find?_of_mem (nodup : (es.map Stamped.key).Nodup) (member : e ∈ es) :
    es.find? (fun x => x.key == e.key) = some e := by
  induction es with
  | nil => cases member
  | cons head rest ih =>
    rw [List.map_cons, List.nodup_cons] at nodup
    rcases List.mem_cons.mp member with rfl | later
    · simp
    · have unlike : head.key ≠ e.key := by
        intro same
        exact nodup.1 (same ▸ List.mem_map_of_mem later)
      rw [List.find?_cons_of_neg (by simpa using unlike)]
      exact ih nodup.2 later

theorem lookup_entries (es : List (Stamped α)) (key : String) :
    (es.map Stamped.entry).lookup key =
      (es.find? (fun x => x.key == key)).map Stamped.value := by
  induction es with
  | nil => rfl
  | cons head rest ih =>
    rw [List.map_cons, Stamped.entry, List.lookup_cons, List.find?_cons]
    by_cases same : head.key = key
    · simp [same]
    · simp [beq_eq_false_iff_ne.mpr same, beq_eq_false_iff_ne.mpr (Ne.symm same), ih]

theorem filter_entries (es : List (Stamped α)) (key : String) :
    (es.filter (fun x => x.key != key)).map Stamped.entry =
      (es.map Stamped.entry).filter (fun entry => entry.1 != key) := by
  rw [List.filter_map]
  rfl

/-- Keys are different, so the entry of a key can be taken out to the front. -/
theorem perm_front (nodup : (es.map Stamped.key).Nodup) (member : e ∈ es) :
    es.Perm (e :: es.filter (fun x => x.key != e.key)) := by
  induction es with
  | nil => cases member
  | cons head rest ih =>
    rw [List.map_cons, List.nodup_cons] at nodup
    rcases List.mem_cons.mp member with rfl | later
    · have others : rest.filter (fun x => x.key != e.key) = rest := by
        rw [List.filter_eq_self]
        intro x inRest
        have unlike : x.key ≠ e.key := fun same => nodup.1 (same ▸ List.mem_map_of_mem inRest)
        simpa using unlike
      rw [List.filter_cons_of_neg (by simp), others]
    · have unlike : head.key ≠ e.key := by
        intro same
        exact nodup.1 (same ▸ List.mem_map_of_mem later)
      rw [List.filter_cons_of_pos (by simpa using unlike)]
      exact ((ih nodup.2 later).cons head).trans (.swap _ _ _)

/-- The list has the entries of the cache, the most recently used first. -/
structure Orders (c : RecencyCache α) (l : List (Stamped α)) : Prop where
  perm : l.Perm c.entries
  recent_first : l.Pairwise (fun a b => b.stamp < a.stamp)
  past : ∀ e ∈ l, e.stamp ≤ c.clock
  keys : (l.map Stamped.key).Nodup
  bounded : l.length ≤ c.capacity
  room : 0 < c.capacity

/-- The cache stands for a list of keys and values, the most recently used first. -/
def Refines (c : RecencyCache α) (m : List (String × α)) : Prop :=
  ∃ l, Orders c l ∧ m = l.map Stamped.entry

theorem Orders.find? (orders : Orders c l) (key : String) :
    c.find? key = l.find? (fun x => x.key == key) := by
  have keys : (c.entries.map Stamped.key).Nodup :=
    (orders.perm.map Stamped.key).nodup_iff.mp orders.keys
  unfold RecencyCache.find?
  cases found : l.find? (fun x => x.key == key) with
  | some e =>
    have same : e.key = key := by simpa using List.find?_some found
    subst same
    exact find?_of_mem keys (orders.perm.mem_iff.mp (List.mem_of_find?_eq_some found))
  | none =>
    rw [List.find?_eq_none] at found ⊢
    exact fun x member => found x (orders.perm.mem_iff.mpr member)

theorem Orders.lookup (orders : Orders c l) (key : String) :
    (l.map Stamped.entry).lookup key = (c.find? key).map Stamped.value := by
  rw [lookup_entries, orders.find?]

/-- An entry with a new stamp goes before entries of other keys. -/
theorem Orders.front {es : List (Stamped α)} {kept : List (Stamped α)} (orders : Orders c l)
    (sublist : kept.Sublist l) (absent : key ∉ kept.map Stamped.key)
    (shorter : kept.length < c.capacity)
    (perm : (⟨key, value, c.clock + 1⟩ :: kept).Perm es) :
    Orders { c with clock := c.clock + 1, entries := es } (⟨key, value, c.clock + 1⟩ :: kept) where
  perm := perm
  recent_first := by
    rw [List.pairwise_cons]
    refine ⟨?_, orders.recent_first.sublist sublist⟩
    intro e member
    have := orders.past e (sublist.subset member)
    show e.stamp < c.clock + 1
    omega
  past := by
    intro e member
    show e.stamp ≤ c.clock + 1
    rcases List.mem_cons.mp member with rfl | old
    · exact Nat.le_refl _
    · have := orders.past e (sublist.subset old)
      omega
  keys := by
    rw [List.map_cons, List.nodup_cons]
    exact ⟨absent, orders.keys.sublist (sublist.map Stamped.key)⟩
  bounded := shorter
  room := orders.room

theorem notMem_filter_key (es : List (Stamped α)) (key : String) :
    key ∉ (es.filter (fun x => x.key != key)).map Stamped.key := by
  intro member
  obtain ⟨x, kept, same⟩ := List.mem_map.mp member
  simp [same] at kept

theorem oldest?_none (none : oldest? es = none) : es = [] := by
  cases es with
  | nil => rfl
  | cons head rest =>
    unfold oldest? at none
    split at none <;> cases none

theorem oldest?_least {o : Stamped α} (found : oldest? es = some o) :
    o ∈ es ∧ ∀ e ∈ es, o.stamp ≤ e.stamp := by
  induction es generalizing o with
  | nil => cases found
  | cons head rest ih =>
    unfold oldest? at found
    cases inner : oldest? rest with
    | none =>
      rw [inner] at found
      cases found
      simp [oldest?_none inner]
    | some other =>
      obtain ⟨member, least⟩ := ih inner
      simp only [inner, Option.some.injEq] at found
      split at found
      · next before =>
        subst found
        refine ⟨List.mem_cons_self, ?_⟩
        intro e listed
        rcases List.mem_cons.mp listed with rfl | later
        · exact Nat.le_refl _
        · exact Nat.le_trans before (least e later)
      · next after =>
        subst found
        refine ⟨List.mem_cons_of_mem _ member, ?_⟩
        intro e listed
        rcases List.mem_cons.mp listed with rfl | later
        · omega
        · exact least e later

/-- The oldest entry is the last by recency, in whatever order the entries are stored. -/
theorem Orders.oldest? (orders : Orders c l) : oldest? c.entries = l.getLast? := by
  cases found : RecencyCache.oldest? c.entries with
  | none =>
    have empty : l = [] := by
      have := orders.perm
      rwa [oldest?_none found, List.perm_nil] at this
    simp [empty]
  | some o =>
    obtain ⟨member, least⟩ := oldest?_least found
    rcases List.eq_nil_or_concat l with empty | ⟨front, last, split⟩
    · have := orders.perm.mem_iff.mpr member
      simp [empty] at this
    · have strict := orders.recent_first
      rw [split, List.concat_eq_append, List.pairwise_append] at strict
      have inList := orders.perm.mem_iff.mpr member
      rw [split, List.concat_eq_append, List.mem_append, List.mem_singleton] at inList
      rcases inList with early | rfl
      · have later := strict.2.2 o early last (by simp)
        have := least last (orders.perm.mem_iff.mp (by simp [split]))
        omega
      · simp [split]

theorem refines_empty (capacity : Nat) : Refines (empty capacity : RecencyCache α) [] := by
  refine ⟨[], ⟨.refl _, .nil, by simp, by simp, Nat.zero_le _, ?_⟩, rfl⟩
  show 0 < max capacity 1
  omega

theorem Refines.clear (refines : Refines c m) : Refines c.clear [] := by
  obtain ⟨l, orders, rfl⟩ := refines
  exact ⟨[], ⟨.refl _, .nil, by simp, by simp, Nat.zero_le _, orders.room⟩, rfl⟩

/-- How the entries are stored does not count. -/
theorem Refines.perm (refines : Refines c m) (stored : es.Perm c.entries) :
    Refines { c with entries := es } m := by
  obtain ⟨l, orders, rfl⟩ := refines
  exact ⟨l, { orders with perm := orders.perm.trans stored.symm }, rfl⟩

/-- There is one list that the cache stands for. -/
theorem Refines.unique {m' : List (String × α)} (refines : Refines c m) (other : Refines c m') :
    m' = m := by
  obtain ⟨l, orders, rfl⟩ := refines
  obtain ⟨l', orders', rfl⟩ := other
  have same : l' = l := by
    refine List.Perm.eq_of_pairwise ?_ orders'.recent_first orders.recent_first
      (orders'.perm.trans orders.perm.symm)
    intro a b _ _ before after
    omega
  rw [same]

theorem Refines.length_le (refines : Refines c m) : m.length ≤ c.capacity := by
  obtain ⟨l, orders, rfl⟩ := refines
  rw [List.length_map]
  exact orders.bounded

theorem Refines.stamps_nodup (refines : Refines c m) : (c.entries.map Stamped.stamp).Nodup := by
  obtain ⟨l, orders, rfl⟩ := refines
  rw [← (orders.perm.map Stamped.stamp).nodup_iff, List.Nodup, List.pairwise_map]
  refine orders.recent_first.imp ?_
  intro a b later
  omega

theorem capacity_get (c : RecencyCache α) (key : String) :
    (c.get key).2.capacity = c.capacity := by
  unfold RecencyCache.get
  split <;> rfl

theorem Refines.get (refines : Refines c m) (key : String) :
    (c.get key).1 = m.lookup key ∧ Refines (c.get key).2 (Recents.use key m) := by
  obtain ⟨l, orders, rfl⟩ := refines
  have lookup := orders.lookup key
  have inList := orders.find? key
  unfold RecencyCache.get Recents.use
  cases found : c.find? key with
  | none =>
    rw [found, Option.map_none] at lookup
    simp only [lookup]
    exact ⟨trivial, l, orders, rfl⟩
  | some e =>
    rw [found, Option.map_some] at lookup
    rw [found] at inList
    simp only [lookup]
    have same : e.key = key := by simpa using List.find?_some inList.symm
    have member : e ∈ l := List.mem_of_find?_eq_some inList.symm
    subst same
    refine ⟨trivial, ⟨e.key, e.value, c.clock + 1⟩ :: l.filter (fun x => x.key != e.key), ?_, ?_⟩
    · have front := perm_front orders.keys member
      apply orders.front List.filter_sublist (notMem_filter_key l e.key)
      · have := front.length_eq
        have := orders.bounded
        rw [List.length_cons] at *
        omega
      · -- Stamping leaves the entries of other keys.
        have stamped := (front.symm.trans orders.perm).map
          (fun x => if x.key == e.key then { x with stamp := c.clock + 1 } else x)
        rw [List.map_cons] at stamped
        have others : (l.filter (fun x => x.key != e.key)).map
            (fun x => if x.key == e.key then { x with stamp := c.clock + 1 } else x) =
              l.filter (fun x => x.key != e.key) := by
          rw [List.map_congr_left (g := id), List.map_id]
          intro x kept
          have unlike : x.key ≠ e.key := by simpa using (List.mem_filter.mp kept).2
          simp [unlike]
        rw [others] at stamped
        simpa using stamped
    · rw [List.map_cons, filter_entries]
      rfl

/-- The last entry by recency is the one that its key takes out. -/
theorem Orders.dropLast (orders : Orders c l) (last : l.getLast? = some e) :
    l.filter (fun x => x.key != e.key) = l.dropLast := by
  obtain ⟨front, rfl⟩ := List.getLast?_eq_some_iff.mp last
  have keys := orders.keys
  rw [List.map_append, List.nodup_append] at keys
  have kept : front.filter (fun x => x.key != e.key) = front := by
    rw [List.filter_eq_self]
    intro x member
    have unlike := keys.2.2 x.key (List.mem_map_of_mem member) e.key (by simp)
    simpa using unlike
  simp [kept]

theorem Orders.evicted (orders : Orders c l) (key : String) (value : α) :
    (c.put key value).1 = Recents.evicted? c.capacity key (l.map Stamped.entry) := by
  have size : c.size = l.length := orders.perm.length_eq.symm
  unfold RecencyCache.put Recents.evicted?
  rw [orders.lookup, orders.oldest?, size, List.length_map, List.getLast?_map, Option.map_map]
  cases c.find? key with
  | some e => simp
  | none => simp [Function.comp_def, Stamped.entry]

/-- The entries that are kept when a value is stored. -/
def kept (key : String) (evicted : Option String) (l : List (Stamped α)) : List (Stamped α) :=
  l.filter (fun x => x.key != key && evicted != some x.key)

theorem kept_of_none (key : String) (l : List (Stamped α)) :
    kept key none l = l.filter (fun x => x.key != key) := by
  refine List.filter_congr fun x _ => ?_
  have differs : ((none : Option String) != some x.key) = true := rfl
  rw [differs, Bool.and_true]

theorem kept_of_absent {evicted : Option String} (absent : ∀ x ∈ l, x.key ≠ key) :
    kept key evicted l = l.filter (fun x => evicted != some x.key) := by
  refine List.filter_congr fun x member => ?_
  have differs : (x.key != key) = true := by simpa using absent x member
  rw [differs, Bool.true_and]

theorem Orders.put (orders : Orders c l)
    (shorter : (kept key (c.put key value).1 l).length < c.capacity) :
    Orders (c.put key value).2
      (⟨key, value, c.clock + 1⟩ :: kept key (c.put key value).1 l) := by
  refine orders.front List.filter_sublist ?_ shorter ?_
  · intro member
    obtain ⟨x, left, same⟩ := List.mem_map.mp member
    simp [kept, same] at left
  · exact ((orders.perm.filter _).cons _).trans (List.perm_append_singleton _ _).symm

/-- What is kept is what the list by recency keeps, and leaves room for the new entry. -/
theorem Orders.kept_entries (orders : Orders c l) (key : String) (value : α) :
    (kept key (Recents.evicted? c.capacity key (l.map Stamped.entry)) l).length < c.capacity ∧
      (key, value) ::
        (kept key (Recents.evicted? c.capacity key (l.map Stamped.entry)) l).map Stamped.entry =
        Recents.store c.capacity key value (l.map Stamped.entry) := by
  have bounded := orders.bounded
  have room := orders.room
  have inList := orders.find? key
  unfold Recents.evicted? Recents.store
  rw [orders.lookup, List.length_map]
  cases found : c.find? key with
  | some e =>
    rw [found] at inList
    have same : e.key = key := by simpa using List.find?_some inList.symm
    have front := perm_front orders.keys (List.mem_of_find?_eq_some inList.symm)
    have shorter := front.length_eq
    rw [List.length_cons, same] at shorter
    simp only [Option.map_some, Option.isNone_some, Option.isSome_some, Bool.false_and,
      Bool.false_eq_true, if_false, if_true, kept_of_none, filter_entries, and_true]
    omega
  | none =>
    rw [found] at inList
    have absent : ∀ x ∈ l, x.key ≠ key := by
      intro x member
      simpa using List.find?_eq_none.mp inList.symm x member
    simp only [Option.map_none, Option.isNone_none, Option.isSome_none, Bool.true_and,
      Bool.false_eq_true, if_false, decide_eq_true_eq, kept_of_absent absent]
    by_cases full : c.capacity ≤ l.length
    · have nonempty : l ≠ [] := by
        rintro rfl
        simp at full
        omega
      have last := List.getLast?_eq_some_getLast nonempty
      have dropped := orders.dropLast last
      have others : l.filter (fun x => some (l.getLast nonempty).key != some x.key) =
          l.dropLast := by
        rw [← dropped]
        refine List.filter_congr fun x _ => ?_
        rw [Bool.eq_iff_iff, bne_iff_ne, bne_iff_ne, ne_eq, Option.some.injEq]
        exact not_congr eq_comm
      simp only [if_pos full, List.getLast?_map, last, Option.map_some, Stamped.entry, others,
        List.length_dropLast, List.map_dropLast, and_true]
      omega
    · have all : l.filter (fun x => (none : Option String) != some x.key) = l :=
        List.filter_eq_self.mpr fun _ _ => rfl
      simp only [if_neg full, all, and_true]
      omega

theorem Refines.put (refines : Refines c m) (key : String) (value : α) :
    (c.put key value).1 = Recents.evicted? c.capacity key m ∧
      Refines (c.put key value).2 (Recents.store c.capacity key value m) := by
  obtain ⟨l, orders, rfl⟩ := refines
  have evicted := orders.evicted key value
  obtain ⟨shorter, entries⟩ := orders.kept_entries key value
  rw [← evicted] at shorter entries
  exact ⟨evicted, _, orders.put shorter, entries.symm⟩

end RecencyCache

end Interop
