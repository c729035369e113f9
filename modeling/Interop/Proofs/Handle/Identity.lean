import Mathlib.Data.List.Nodup
import Interop.Handle.Table

/-!
One handle for one object. Handles are wrapped, viewed as super views, copied, dropped and released
in any order, and several handles on one object may be alive at once: the one that stands for it,
super views, and handles that were released. The cache then names exactly the handle that the last
wrapping of an object gave, as long as that handle lives and is not released; every entry leaves
with its own handle, and no other handle takes it away.
-/
namespace Interop.HandleTable

variable {t : HandleTable} {id other : HandleId} {h new : Handle} {address : Nat}
  {change : Handle → Handle}

theorem isAlive_iff : t.isAlive id = true ↔ ∃ h, t.get? id = some h ∧ 0 < h.references := by
  unfold isAlive
  cases t.get? id <;> simp

theorem get?_update (t : HandleTable) (id other : HandleId) (change : Handle → Handle) :
    (t.update id change).get? other =
      if other = id then (t.get? other).map change else t.get? other := by
  have indices : id.index = other.index ↔ other = id := by
    constructor
    · intro same
      cases id
      cases other
      exact congrArg HandleId.mk same.symm
    · rintro rfl
      rfl
  simp only [get?, update, List.getElem?_modify, indices]
  split
  · rfl
  · simp

theorem isAlive_update (different : other ≠ id) :
    (t.update id change).isAlive other = t.isAlive other := by
  simp [isAlive, get?_update, different]

theorem isAlive_retain (alive : t.isAlive other = true) : (t.retain id).isAlive other = true := by
  obtain ⟨h, found, positive⟩ := isAlive_iff.mp alive
  rw [isAlive_iff, retain, get?_update, found]
  split
  · exact ⟨_, rfl, by simp⟩
  · exact ⟨h, rfl, positive⟩

theorem get?_add (found : t.get? id = some h) (new : Handle) : (t.add new).2.get? id = some h := by
  have inRange : id.index < t.handles.length := (List.getElem?_eq_some_iff.mp found).1
  exact (List.getElem?_append_left inRange).trans found

/-- Every object has one entry at most, and the entry names a handle on the object. -/
structure Keyed (t : HandleTable) : Prop where
  keys : (t.cache.map Prod.fst).Nodup
  targets : ∀ entry ∈ t.cache, ∃ h, t.get? entry.2 = some h ∧ h.target.address = entry.1

/-- Moreover, the handles that the cache names are alive. -/
structure Tidy (t : HandleTable) : Prop extends Keyed t where
  alive : ∀ entry ∈ t.cache, t.isAlive entry.2 = true

theorem lookup_eq_some_iff_mem {entries : List (Nat × HandleId)}
    (keys : (entries.map Prod.fst).Nodup) :
    entries.lookup address = some id ↔ (address, id) ∈ entries := by
  induction entries with
  | nil => simp
  | cons entry rest ih =>
    obtain ⟨key, named⟩ := entry
    obtain ⟨apart, keys⟩ := List.nodup_cons.mp keys
    rw [List.lookup_cons]
    by_cases same : address = key
    · subst same
      have absent : (address, id) ∉ rest := fun member => apart (List.mem_map.mpr ⟨_, member, rfl⟩)
      simp [absent, eq_comm]
    · simp [same, beq_eq_false_iff_ne.mpr same, ih keys]

theorem Keyed.unique (keyed : Keyed t) (entry : (address, id) ∈ t.cache)
    (entry' : (address, other) ∈ t.cache) : id = other := by
  have hit := (lookup_eq_some_iff_mem keyed.keys).mpr entry
  rw [(lookup_eq_some_iff_mem keyed.keys).mpr entry'] at hit
  exact (Option.some.inj hit).symm

/-- An entry stands under the address of its handle's object. -/
theorem Keyed.address_eq (keyed : Keyed t) (entry : (address, id) ∈ t.cache)
    (found : t.get? id = some h) : address = h.target.address := by
  obtain ⟨h', found', target⟩ := keyed.targets _ entry
  rw [found] at found'
  cases found'
  exact target.symm

theorem Keyed.update (keyed : Keyed t) (id : HandleId)
    (target : ∀ h, (change h).target = h.target) : Keyed (t.update id change) := by
  refine ⟨keyed.keys, ?_⟩
  intro entry member
  obtain ⟨h, found, same⟩ := keyed.targets entry member
  rw [get?_update, found]
  split
  · exact ⟨_, rfl, (congrArg ObjectRef.address (target h)).trans same⟩
  · exact ⟨h, rfl, same⟩

/-- The table without the entry of a handle. -/
def without (t : HandleTable) (id : HandleId) : HandleTable :=
  { t with cache := t.cache.filter (fun entry => entry.2 != id) }

theorem mem_without : (address, other) ∈ (t.without id).cache ↔
    (address, other) ∈ t.cache ∧ other ≠ id := by
  simp [without]

theorem without_eq_self (absent : ∀ address, (address, id) ∉ t.cache) : t.without id = t := by
  have all : t.cache.filter (fun entry => entry.2 != id) = t.cache := by
    apply List.filter_eq_self.mpr
    rintro ⟨address, named⟩ member
    rw [bne_iff_ne]
    rintro rfl
    exact absent address member
  simp only [without, all]

theorem Keyed.without (keyed : Keyed t) (id : HandleId) : Keyed (t.without id) where
  keys := keyed.keys.sublist (List.filter_sublist.map Prod.fst)
  targets entry member := keyed.targets entry (List.mem_filter.mp member).1

/-- Forgetting a handle takes its own entry out, where the other entries are not dead. -/
theorem Keyed.forget_eq (keyed : Keyed t)
    (others : ∀ entry ∈ t.cache, entry.2 ≠ id → t.isAlive entry.2 = true) :
    t.forget id = t.without id := by
  unfold forget
  cases found : t.get? id with
  | none =>
    refine (without_eq_self ?_).symm
    intro address entry
    obtain ⟨h, there, _⟩ := keyed.targets _ entry
    rw [found] at there
    cases there
  | some h =>
    dsimp only
    cases cached : t.cache.lookup h.target.address with
    | none =>
      refine (without_eq_self ?_).symm
      intro address entry
      have hit := (lookup_eq_some_iff_mem keyed.keys).mpr entry
      rw [keyed.address_eq entry found, cached] at hit
      cases hit
    | some named =>
      have entry := (lookup_eq_some_iff_mem keyed.keys).mp cached
      dsimp only
      split
      · next removed =>
        have own : named = id := by
          by_contra different
          have lives := others _ entry different
          simp [different, lives] at removed
        subst own
        -- The address of the object and the handle pick out the same entry.
        have picked : t.cache.filter (fun entry => entry.1 != h.target.address) =
            t.cache.filter (fun entry => entry.2 != named) := by
          apply List.filter_congr
          rintro ⟨key, other⟩ member
          have same : key = h.target.address ↔ other = named := by
            constructor
            · rintro rfl
              exact keyed.unique member entry
            · rintro rfl
              exact keyed.address_eq member found
          simp [bne, Bool.beq_eq_decide_eq, same]
        simp only [HandleTable.without, picked]
      · next kept =>
        refine (without_eq_self ?_).symm
        intro address own
        cases keyed.address_eq own found
        cases keyed.unique own entry
        simp at kept

theorem Tidy.forget_eq (tidy : Tidy t) (id : HandleId) : t.forget id = t.without id :=
  tidy.toKeyed.forget_eq (fun entry member _ => tidy.alive entry member)

/-- One reference to a handle less, before the cache is looked at. -/
def unhold (t : HandleTable) (id : HandleId) : HandleTable :=
  t.update id (fun h => { h with references := h.references - 1 })

/-- With the reference only the entry of this handle may become a dead one. -/
theorem Tidy.unhold (tidy : Tidy t) (id : HandleId) : Keyed (t.unhold id) ∧
    ∀ entry ∈ t.cache, entry.2 ≠ id → (t.unhold id).isAlive entry.2 = true :=
  ⟨tidy.toKeyed.update id (fun _ => rfl),
    fun entry member different => (isAlive_update different).trans (tidy.alive entry member)⟩

/-- The entry of a handle goes with its last reference. -/
theorem Tidy.drop_eq (tidy : Tidy t) (id : HandleId) :
    t.drop id =
      if (t.unhold id).isAlive id then t.unhold id else (t.unhold id).without id := by
  obtain ⟨keyed, others⟩ := tidy.unhold id
  have forgotten := keyed.forget_eq others
  unfold drop
  dsimp only
  split
  · next alive => exact (if_pos alive).symm
  · next dead => exact forgotten.trans (if_neg dead).symm

theorem Tidy.cache_drop (tidy : Tidy t) (id : HandleId) :
    (t.drop id).cache = if (t.drop id).isAlive id then t.cache else (t.without id).cache := by
  rw [tidy.drop_eq]
  split
  · rfl
  · next dead => exact (if_neg dead).symm

/-- Wrapping finds the live handle of the object, or makes a new one and enters it. -/
theorem Tidy.wrap_cases (tidy : Tidy t) (target : ObjectRef) (view : TypeId)
    (dispatcher : Option DispatcherId) :
    (∃ id, (target.address, id) ∈ t.cache ∧ t.wrap target view dispatcher = (id, t.retain id)) ∨
    ((∀ id, (target.address, id) ∉ t.cache) ∧ t.wrap target view dispatcher =
      (⟨t.handles.length⟩,
        { handles := t.handles ++ [⟨target, view, dispatcher, false, 1⟩]
          cache := (target.address, ⟨t.handles.length⟩) :: t.cache })) := by
  cases cached : t.cache.lookup target.address with
  | some id =>
    have member := (lookup_eq_some_iff_mem tidy.keys).mp cached
    have alive : t.isAlive id = true := tidy.alive _ member
    have hit : t.lookup target = some id := by simp [lookup, cached, Option.filter, alive]
    exact Or.inl ⟨id, member, by simp [wrap, hit]⟩
  | none =>
    have absent : ∀ id, (target.address, id) ∉ t.cache := by
      intro id member
      rw [(lookup_eq_some_iff_mem tidy.keys).mpr member] at cached
      cases cached
    have all : t.cache.filter (fun entry => entry.1 != target.address) = t.cache := by
      apply List.filter_eq_self.mpr
      intro entry member
      by_contra same
      have key : entry.1 = target.address := by simpa using same
      exact absent entry.2 (key ▸ member)
    refine Or.inr ⟨absent, ?_⟩
    simp [wrap, lookup, cached, add, all]

inductive Operation where
  | wrap (target : ObjectRef) (view : TypeId) (dispatcher : Option DispatcherId)
  | superView (id : HandleId)
  | clone (id : HandleId)
  | drop (id : HandleId)
  | release (id : HandleId)

def Operation.apply (t : HandleTable) : Operation → HandleTable
  | wrap target view dispatcher => (t.wrap target view dispatcher).2
  | superView id => (t.superView id).2
  | clone id => t.retain id
  | drop id => t.drop id
  | release id => t.forget id

theorem tidy_empty : Tidy empty := ⟨⟨List.nodup_nil, nofun⟩, nofun⟩

theorem Tidy.retain (tidy : Tidy t) (id : HandleId) : Tidy (t.retain id) :=
  ⟨tidy.toKeyed.update id (fun _ => rfl),
    fun entry member => isAlive_retain (tidy.alive entry member)⟩

/-- A new handle that the cache does not name. -/
theorem Tidy.add (tidy : Tidy t) (new : Handle) : Tidy (t.add new).2 := by
  refine ⟨⟨tidy.keys, ?_⟩, ?_⟩
  · intro entry member
    obtain ⟨h, found, target⟩ := tidy.targets entry member
    exact ⟨h, get?_add found new, target⟩
  · intro entry member
    obtain ⟨h, found, positive⟩ := isAlive_iff.mp (tidy.alive entry member)
    exact isAlive_iff.mpr ⟨h, get?_add found new, positive⟩

theorem Tidy.wrap (tidy : Tidy t) (target : ObjectRef) (view : TypeId)
    (dispatcher : Option DispatcherId) : Tidy (t.wrap target view dispatcher).2 := by
  rcases tidy.wrap_cases target view dispatcher with ⟨id, _, wrapped⟩ | ⟨absent, wrapped⟩
  · rw [wrapped]
    exact tidy.retain id
  · rw [wrapped]
    have added := tidy.add ⟨target, view, dispatcher, false, 1⟩
    have self : (t.add ⟨target, view, dispatcher, false, 1⟩).2.get? ⟨t.handles.length⟩ =
        some ⟨target, view, dispatcher, false, 1⟩ := by
      simp [HandleTable.add, get?]
    refine ⟨⟨?_, ?_⟩, ?_⟩
    · refine List.nodup_cons.mpr ⟨?_, tidy.keys⟩
      intro member
      obtain ⟨⟨key, id⟩, listed, rfl⟩ := List.mem_map.mp member
      exact absent id listed
    · intro entry member
      rcases List.mem_cons.mp member with rfl | old
      · exact ⟨_, self, rfl⟩
      · exact added.targets entry old
    · intro entry member
      rcases List.mem_cons.mp member with rfl | old
      · exact isAlive_iff.mpr ⟨_, self, Nat.one_pos⟩
      · exact added.alive entry old

theorem Tidy.forget (tidy : Tidy t) (id : HandleId) : Tidy (t.forget id) := by
  rw [tidy.forget_eq]
  exact ⟨tidy.toKeyed.without id,
    fun entry member => tidy.alive entry (List.mem_filter.mp member).1⟩

theorem Tidy.drop (tidy : Tidy t) (id : HandleId) : Tidy (t.drop id) := by
  obtain ⟨keyed, others⟩ := tidy.unhold id
  rw [tidy.drop_eq]
  split
  · next alive =>
    refine ⟨keyed, ?_⟩
    intro entry member
    by_cases same : entry.2 = id
    · rw [same]
      exact alive
    · exact others entry member same
  · refine ⟨keyed.without id, ?_⟩
    intro entry member
    obtain ⟨listed, different⟩ := List.mem_filter.mp member
    exact others entry listed (by simpa using different)

theorem Tidy.apply (tidy : Tidy t) (operation : Operation) : Tidy (operation.apply t) := by
  cases operation with
  | wrap target view dispatcher => exact tidy.wrap target view dispatcher
  | superView id =>
    simp only [Operation.apply, superView]
    split
    · exact tidy
    · split
      · exact tidy.add _
      · exact tidy.retain id
  | clone id => exact tidy.retain id
  | drop id => exact tidy.drop id
  | release id => exact tidy.forget id

theorem Tidy.mem_cache_wrap (tidy : Tidy t) (target : ObjectRef) (view : TypeId)
    (dispatcher : Option DispatcherId) :
    (address, id) ∈ (t.wrap target view dispatcher).2.cache ↔
      (target.address = address ∧ (t.wrap target view dispatcher).1 = id) ∨
        (target.address ≠ address ∧ (address, id) ∈ t.cache) := by
  by_cases same : target.address = address
  · subst same
    rcases tidy.wrap_cases target view dispatcher with ⟨named, member, wrapped⟩ | ⟨absent, wrapped⟩
    · rw [wrapped]
      constructor
      · exact fun entry => Or.inl ⟨rfl, tidy.toKeyed.unique member entry⟩
      · rintro (⟨_, rfl⟩ | ⟨different, _⟩)
        · exact member
        · exact absurd rfl different
    · simp [wrapped, absent id, eq_comm]
  · rcases tidy.wrap_cases target view dispatcher with ⟨named, _, wrapped⟩ | ⟨_, wrapped⟩
    · simp [wrapped, same, HandleTable.retain, update]
    · simp [wrapped, same, Ne.symm same]

theorem cache_superView (t : HandleTable) (id : HandleId) : (t.superView id).2.cache = t.cache := by
  unfold superView
  split
  · rfl
  · split <;> rfl

/-- The operation wraps the object at this address. -/
def Operation.Wraps (operation : Operation) (address : Nat) : Prop :=
  ∃ target view dispatcher, operation = .wrap target view dispatcher ∧ target.address = address

/-- After an operation the cache names the handle that the operation wrapped the object with, or
else the handle that it named before, if it is still alive and not the one released. -/
theorem Tidy.mem_cache_apply (tidy : Tidy t) (operation : Operation) :
    (address, id) ∈ (operation.apply t).cache ↔
      (∃ target view dispatcher, operation = .wrap target view dispatcher ∧
        target.address = address ∧ (t.wrap target view dispatcher).1 = id) ∨
      (¬operation.Wraps address ∧ (address, id) ∈ t.cache ∧ operation ≠ .release id ∧
        (operation.apply t).isAlive id = true) := by
  constructor
  · intro entry
    have alive := (tidy.apply operation).alive _ entry
    cases operation with
    | wrap target view dispatcher =>
      rcases (tidy.mem_cache_wrap target view dispatcher).mp entry with ⟨same, given⟩ | ⟨apart, old⟩
      · exact Or.inl ⟨target, view, dispatcher, rfl, same, given⟩
      · refine Or.inr ⟨?_, old, nofun, alive⟩
        rintro ⟨_, _, _, ⟨⟩, same⟩
        exact apart same
    | superView source =>
      simp only [Operation.apply, cache_superView] at entry
      exact Or.inr ⟨nofun, entry, nofun, alive⟩
    | clone cloned => exact Or.inr ⟨nofun, entry, nofun, alive⟩
    | drop dropped =>
      have old : (address, id) ∈ t.cache := by
        simp only [Operation.apply, tidy.cache_drop] at entry
        split at entry
        · exact entry
        · exact (mem_without.mp entry).1
      exact Or.inr ⟨nofun, old, nofun, alive⟩
    | release released =>
      simp only [Operation.apply, tidy.forget_eq, mem_without] at entry
      refine Or.inr ⟨nofun, entry.1, ?_, alive⟩
      rintro ⟨⟩
      exact entry.2 rfl
  · rintro (⟨target, view, dispatcher, rfl, same, given⟩ | ⟨notWrapped, old, notReleased, alive⟩)
    · exact (tidy.mem_cache_wrap target view dispatcher).mpr (Or.inl ⟨same, given⟩)
    · cases operation with
      | wrap target view dispatcher =>
        have apart : target.address ≠ address :=
          fun same => notWrapped ⟨target, view, dispatcher, rfl, same⟩
        exact (tidy.mem_cache_wrap target view dispatcher).mpr (Or.inr ⟨apart, old⟩)
      | superView source =>
        simp only [Operation.apply, cache_superView]
        exact old
      | clone cloned => exact old
      | drop dropped =>
        simp only [Operation.apply, tidy.cache_drop] at alive ⊢
        split
        · exact old
        · next dead =>
          refine mem_without.mpr ⟨old, ?_⟩
          rintro rfl
          exact dead alive
      | release released =>
        simp only [Operation.apply, tidy.forget_eq, mem_without]
        exact ⟨old, fun same => notReleased (congrArg Operation.release same.symm)⟩

theorem Tidy.handles_le_apply (tidy : Tidy t) (operation : Operation) :
    t.handles.length ≤ (operation.apply t).handles.length := by
  cases operation with
  | wrap target view dispatcher =>
    rcases tidy.wrap_cases target view dispatcher with ⟨id, _, wrapped⟩ | ⟨_, wrapped⟩
    · simp [Operation.apply, wrapped, HandleTable.retain, update]
    · simp [Operation.apply, wrapped]
  | superView source =>
    simp only [Operation.apply, superView]
    split
    · exact Nat.le_refl _
    · split
      · simp [HandleTable.add]
      · simp [HandleTable.retain, update]
  | clone id => simp [Operation.apply, HandleTable.retain, update]
  | drop id =>
    simp only [Operation.apply, tidy.drop_eq]
    split <;> simp [HandleTable.unhold, HandleTable.without, update]
  | release id => simp [Operation.apply, tidy.forget_eq, HandleTable.without]

/-- The table after a history, which lists the operations with the latest one first. -/
def run : List Operation → HandleTable
  | [] => empty
  | operation :: earlier => operation.apply (run earlier)

variable {history : List Operation}

theorem tidy_run (history : List Operation) : Tidy (run history) := by
  induction history with
  | nil => exact tidy_empty
  | cons operation earlier ih => exact ih.apply operation

/-- The handle was made as a super view of another one. A handle without overrides is its own. -/
inductive IsSuperView : List Operation → HandleId → Prop where
  | made {source : HandleId} {h : Handle} {earlier : List Operation}
      (found : (run earlier).get? source = some h) (overridden : h.dispatcher.isSome = true) :
      IsSuperView (.superView source :: earlier) ((run earlier).superView source).1
  | before {operation : Operation} {earlier : List Operation} {id : HandleId}
      (made : IsSuperView earlier id) : IsSuperView (operation :: earlier) id

/-- No wrapping gives a handle that is there and that the cache does not name. -/
theorem Tidy.wrap_ne (tidy : Tidy t) (inRange : id.index < t.handles.length)
    (uncached : ∀ address, (address, id) ∉ t.cache) (target : ObjectRef) (view : TypeId)
    (dispatcher : Option DispatcherId) : (t.wrap target view dispatcher).1 ≠ id := by
  rcases tidy.wrap_cases target view dispatcher with ⟨named, member, wrapped⟩ | ⟨_, wrapped⟩
  · rw [wrapped]
    rintro rfl
    exact uncached _ member
  · rw [wrapped]
    rintro rfl
    exact Nat.lt_irrefl _ inRange

theorem IsSuperView.uncached (superView : IsSuperView history id) :
    id.index < (run history).handles.length ∧ ∀ address, (address, id) ∉ (run history).cache := by
  induction superView with
  | @made source h earlier found overridden =>
    have tidy := tidy_run earlier
    have added : (run earlier).superView source =
        (run earlier).add { h with superCall := true } := by
      simp [HandleTable.superView, found, overridden]
    simp only [run, Operation.apply, added]
    refine ⟨by simp [HandleTable.add], ?_⟩
    intro address entry
    obtain ⟨h, there, _⟩ := tidy.targets _ entry
    have inRange := (List.getElem?_eq_some_iff.mp there).1
    exact Nat.lt_irrefl _ inRange
  | @before operation earlier id made ih =>
    have tidy := tidy_run earlier
    refine ⟨Nat.lt_of_lt_of_le ih.1 (tidy.handles_le_apply operation), ?_⟩
    intro address entry
    rcases (tidy.mem_cache_apply operation).mp entry with
      ⟨target, view, dispatcher, _, _, given⟩ | ⟨_, old, _⟩
    · exact tidy.wrap_ne ih.1 ih.2 target view dispatcher given
    · exact ih.2 address old

end Interop.HandleTable
