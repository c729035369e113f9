import Interop.Proofs.Registry.Consistency
import Interop.Proofs.Registry.Declarations

/-!
Member search and subtyping. A class or an interface is visited by the member search from a type
exactly if the type can stand for it, although one search goes depth first and the other level by
level. So whatever is found on a supertype is found on the type, too: fields, the slots of
instances, methods and implementations. This holds between operations and also inside a definition.
-/
namespace Interop.Registry

variable {r : Registry} {rank : TypeId → Nat} {i j : TypeId} {t u : TypeInfo} {m : Method}

/-- A type that is no array is below another only by a path. -/
theorem Below.path (below : Below r i j) (there : r.get? j = some u) (noArray : u.isArray = false) :
    ∃ n, Path r n i j := by
  cases below with
  | refl => exact ⟨0, .here i⟩
  | climb path => exact ⟨_, path⟩
  | array _ target _ =>
    obtain ⟨⟨v, found, kind⟩, _⟩ := target
    rw [there] at found
    cases found
    simp [TypeInfo.isArray, TypeInfo.component?_eq.mpr kind] at noArray

/-- A type that declares a method is no array, so it is above another only by a path. -/
theorem path_of_method (coherent : Coherent r) (ranked : Ranked r rank)
    (assignable : r.isAssignable i j = true) (there : r.get? j = some u)
    (declared : m ∈ u.methods) : ∃ n, Path r n i j := by
  refine ((hops_isSome coherent ranked).mp assignable).path there ?_
  by_contra array
  obtain ⟨c, component⟩ := Option.isSome_iff_exists.mp (Bool.not_eq_false _ ▸ array)
  have shape := (coherent.fits there).array_shape c (TypeInfo.component?_eq.mp component)
  rw [shape] at declared
  cases declared

theorem mem_ids_searchOrder (coherent : Coherent r) :
    j ∈ (r.searchOrder i).map TypeInfo.id ↔ ∃ u ∈ r.searchOrder i, r.get? j = some u := by
  have live : ∀ u ∈ r.searchOrder i, r.get? u.id = some u := by
    intro u listed
    obtain ⟨k, _, found⟩ := List.mem_filterMap.mp listed
    rwa [coherent.ids found]
  rw [List.mem_map]
  constructor
  · rintro ⟨u, listed, rfl⟩
    exact ⟨u, listed, live u listed⟩
  · rintro ⟨u, listed, found⟩
    exact ⟨u, listed, coherent.ids found⟩

theorem nodup_ids_searchOrder (coherent : Coherent r) (i : TypeId) :
    ((r.searchOrder i).map TypeInfo.id).Nodup := by
  have same : ∀ ids : List TypeId,
      (ids.filterMap r.get?).map TypeInfo.id = ids.filter (fun k => (r.get? k).isSome) := by
    intro ids
    induction ids with
    | nil => rfl
    | cons k rest ih =>
      cases found : r.get? k with
      | none => simpa [found] using ih
      | some u => simpa [found, coherent.ids found] using ih
  rw [searchOrder, same]
  exact (nodup_visit List.nodup_nil).filter _

theorem searchOrder_head (found : r.get? i = some t) : ∃ rest, r.searchOrder i = t :: rest := by
  have first : [] ++ [i] <+: r.visit (r.slots.length + 1) [] i := prefix_enter List.not_mem_nil
  obtain ⟨rest, split⟩ := first
  rw [searchOrder, ← split, List.nil_append, List.singleton_append, List.filterMap_cons_some found]
  exact ⟨_, rfl⟩

theorem field?_isSome {name : String} :
    (r.field? i name).isSome ↔ ∃ t ∈ r.searchOrder i, ∃ f ∈ t.fields, f.name = name := by
  simp [field?, List.findSome?_isSome_iff, List.find?_isSome]

theorem hasImplementation_iff :
    r.hasImplementation i m = true ↔ ∃ t ∈ r.searchOrder i, ∃ own ∈ t.methods,
      own.sameSignature m = true ∧ own.body.isSome = true ∧ own.isStatic = false := by
  simp [hasImplementation, implementation?, List.findSome?_isSome_iff, List.find?_isSome, and_assoc]

theorem instanceDefaults_isSome {name : String} :
    ((r.instanceDefaults i).lookup name).isSome ↔
      ∃ t ∈ r.searchOrder i, ∃ f ∈ t.fields, f.name = name ∧ f.isStatic = false := by
  constructor
  · intro some
    obtain ⟨v, entry⟩ := Option.isSome_iff_exists.mp some
    obtain ⟨front, back, split, _⟩ := List.lookup_eq_some_iff.mp entry
    have member : (name, v) ∈ r.instanceDefaults i := by simp [split]
    obtain ⟨t, listed, f, declared, onInstance, same⟩ := instanceDefaults_source member
    cases same
    exact ⟨t, listed, f, declared, rfl, onInstance⟩
  · rintro ⟨t, listed, f, declared, rfl, onInstance⟩
    exact instanceDefaults_complete listed declared onInstance

/-- A type that another one can stand for and that is no array. -/
structure Supertype (r : Registry) (i j : TypeId) : Prop where
  assignable : r.isAssignable i j = true
  noArray : ∃ u, r.get? j = some u ∧ u.isArray = false

/-- The search for members agrees with subtyping. -/
structure SearchesSupertypes (r : Registry) : Prop where
  visited_iff : ∀ {i j u}, r.get? j = some u → u.isArray = false →
    (j ∈ (r.searchOrder i).map TypeInfo.id ↔ r.isAssignable i j = true)
  starts : ∀ {i t}, r.get? i = some t → ∃ rest, r.searchOrder i = t :: rest
  once : ∀ i, ((r.searchOrder i).map TypeInfo.id).Nodup
  /-- All that is visited from a supertype is visited from the type. -/
  inherits : ∀ {i j}, Supertype r i j → r.searchOrder j ⊆ r.searchOrder i
  fields : ∀ {i j name}, Supertype r i j → (r.field? j name).isSome → (r.field? i name).isSome
  /-- An instance has a slot for every field that instances of a supertype have. -/
  slots : ∀ {i j name}, Supertype r i j → ((r.instanceDefaults j).lookup name).isSome →
    ((r.instanceDefaults i).lookup name).isSome
  methods : ∀ {i j m}, Supertype r i j → m ∈ r.allMethods j →
    ∃ own ∈ r.allMethods i, own.sameSignature m = true
  implementations : ∀ {i j m}, Supertype r i j → r.hasImplementation j m = true →
    r.hasImplementation i m = true

theorem visited_iff_of_ranked (coherent : Coherent r) (ranked : Ranked r rank)
    (there : r.get? j = some u) (noArray : u.isArray = false) :
    j ∈ (r.searchOrder i).map TypeInfo.id ↔ r.isAssignable i j = true := by
  rw [mem_ids_searchOrder coherent, isAssignable, hops_isSome coherent ranked]
  constructor
  · rintro ⟨v, listed, found⟩
    obtain ⟨k, found', n, path⟩ := (mem_searchOrder_of_ranked coherent ranked).mp listed
    -- One slot holds the type that was visited, so the path leads to `j`.
    obtain rfl : k = j := (coherent.ids found').symm.trans (coherent.ids found)
    exact below_of_path path
  · intro below
    exact ⟨u, (mem_searchOrder_of_ranked coherent ranked).mpr ⟨j, there, below.path there noArray⟩,
      there⟩

theorem Supertype.inherits (above : Supertype r i j) (coherent : Coherent r)
    (ranked : Ranked r rank) : r.searchOrder j ⊆ r.searchOrder i := by
  obtain ⟨assignable, u, there, noArray⟩ := above
  obtain ⟨n, path⟩ := ((hops_isSome coherent ranked).mp assignable).path there noArray
  intro t listed
  obtain ⟨k, found, m, further⟩ := (mem_searchOrder_of_ranked coherent ranked).mp listed
  exact (mem_searchOrder_of_ranked coherent ranked).mpr ⟨k, found, n + m, path.trans further⟩

theorem searchesSupertypes_of_ranked (coherent : Coherent r) (ranked : Ranked r rank) :
    SearchesSupertypes r := by
  have inherits : ∀ {i j}, Supertype r i j → r.searchOrder j ⊆ r.searchOrder i :=
    fun above => above.inherits coherent ranked
  constructor
  case visited_iff => exact visited_iff_of_ranked coherent ranked
  case starts => exact searchOrder_head
  case once => exact nodup_ids_searchOrder coherent
  case inherits => exact inherits
  case fields =>
    intro i j name above found
    obtain ⟨t, listed, declared⟩ := field?_isSome.mp found
    exact field?_isSome.mpr ⟨t, inherits above listed, declared⟩
  case slots =>
    intro i j name above found
    obtain ⟨t, listed, declared⟩ := instanceDefaults_isSome.mp found
    exact instanceDefaults_isSome.mpr ⟨t, inherits above listed, declared⟩
  case methods =>
    intro i j m above member
    obtain ⟨t, listed, declared⟩ := mem_allMethods member
    obtain ⟨own, among, _, same⟩ :=
      exists_firstDeclaration (mem_declarations.mpr ⟨t, inherits above listed, declared⟩)
    exact ⟨own, among, same⟩
  case implementations =>
    intro i j m above found
    obtain ⟨t, listed, declared⟩ := hasImplementation_iff.mp found
    exact hasImplementation_iff.mpr ⟨t, inherits above listed, declared⟩

/-- Whatever has been defined, looked up or generated, the search for members visits the supertypes,
also inside a definition and whatever references have been resolved there. -/
theorem search_visits_supertypes (operations : List Operation) (resolver : TypeId → Resolver) :
    SearchesSupertypes (afterAll operations) ∧
      SearchesSupertypes ((afterAll operations).resolved resolver).2 :=
  everywhere_of_ranked searchesSupertypes_of_ranked operations resolver

end Interop.Registry
