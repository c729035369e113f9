import Interop.Proofs.Registry.SearchOrder

/-!
Methods by their declarations. The search comes to declarations in an order, and of one signature
the first declaration counts: the methods of a type are these first declarations, once each.
-/
namespace Interop

variable {m m' other : Method}

namespace Method

theorem sameSignature_iff :
    m.sameSignature m' = true ↔ m.name = m'.name ∧ m.params = m'.params := by
  simp [sameSignature]

theorem sameSignature_self (m : Method) : m.sameSignature m = true :=
  sameSignature_iff.mpr ⟨rfl, rfl⟩

/-- Methods of one signature have it in common with the same methods. -/
theorem sameSignature_congr (same : m.sameSignature m' = true) (other : Method) :
    other.sameSignature m = other.sameSignature m' := by
  obtain ⟨name, params⟩ := sameSignature_iff.mp same
  simp [sameSignature, name, params]

end Method

namespace Registry

variable {r : Registry} {i : TypeId} {found declared : List Method}

/-- What a type and its supertypes declare, in search order. -/
def declarations (r : Registry) (i : TypeId) : List Method :=
  (r.searchOrder i).flatMap TypeInfo.methods

/-- The first declaration of the signature of `m`. -/
def firstDeclaration? (r : Registry) (i : TypeId) (m : Method) : Option Method :=
  (r.declarations i).find? (fun own => own.sameSignature m)

/-- No two methods have one signature. -/
def Distinct (methods : List Method) : Prop :=
  methods.Pairwise (fun m other => m.sameSignature other = false)

theorem allMethods_eq (r : Registry) (i : TypeId) :
    r.allMethods i = addNewMethods [] (r.declarations i) :=
  List.foldl_flatMap.symm

/-- Adding methods one by one leaves no two of one signature. -/
theorem distinct_addNewMethods (distinct : Distinct found) :
    Distinct (addNewMethods found declared) := by
  refine List.foldlRecOn declared _ distinct ?_
  intro methods before m _
  split
  · exact before
  · next new =>
    refine List.pairwise_append.mpr ⟨before, List.pairwise_singleton _ _, ?_⟩
    simp only [List.mem_singleton]
    rintro known listed _ rfl
    exact Bool.eq_false_iff.mpr fun same => new (List.any_eq_true.mpr ⟨known, listed, same⟩)

/-- A method that is not added stands behind one of its signature, so the first of a signature is
the same with and without it. -/
theorem find?_addNewMethods (m : Method) :
    (addNewMethods found declared).find? (fun own => own.sameSignature m) =
      (found ++ declared).find? (fun own => own.sameSignature m) := by
  induction declared generalizing found with
  | nil => rw [List.append_nil]; rfl
  | cons first rest ih =>
    have step : addNewMethods found (first :: rest) =
        addNewMethods (if found.any (fun other => other.sameSignature first) then found
          else found ++ [first]) rest := rfl
    rw [step, ih]
    split
    · next known =>
      obtain ⟨other, listed, same⟩ := List.any_eq_true.mp known
      rw [List.find?_append, List.find?_append, List.find?_cons]
      split
      · next matching =>
        have earlier : (found.find? (fun own => own.sameSignature m)).isSome := by
          rw [List.find?_isSome]
          exact ⟨other, listed, by rwa [← Method.sameSignature_congr matching]⟩
        rw [Option.or_of_isSome earlier, Option.or_of_isSome earlier]
      · rfl
    · rw [List.append_assoc, List.singleton_append]

/-- The methods of a type are the first declarations of their signatures. -/
theorem find?_allMethods (r : Registry) (i : TypeId) (m : Method) :
    (r.allMethods i).find? (fun own => own.sameSignature m) = r.firstDeclaration? i m := by
  rw [allMethods_eq, find?_addNewMethods, List.nil_append, firstDeclaration?]

theorem distinct_allMethods (r : Registry) (i : TypeId) : Distinct (r.allMethods i) := by
  rw [allMethods_eq]
  exact distinct_addNewMethods List.Pairwise.nil

theorem Distinct.find?_eq (distinct : Distinct found) (listed : m ∈ found) :
    found.find? (fun own => own.sameSignature m) = some m := by
  obtain ⟨before, after, rfl⟩ := List.append_of_mem listed
  have none : before.find? (fun own => own.sameSignature m) = none := by
    rw [List.find?_eq_none]
    intro own earlier
    have different := (List.pairwise_append.mp distinct).2.2 own earlier m List.mem_cons_self
    exact Bool.eq_false_iff.mp different
  have here : (m :: after).find? (fun own => own.sameSignature m) = some m :=
    List.find?_cons_of_pos (Method.sameSignature_self m)
  rw [List.find?_append, none, Option.none_or, here]

theorem mem_allMethods_iff :
    m ∈ r.allMethods i ↔ r.firstDeclaration? i m = some m := by
  rw [← find?_allMethods]
  exact ⟨(distinct_allMethods r i).find?_eq, List.mem_of_find?_eq_some⟩

theorem mem_declarations : m ∈ r.declarations i ↔ ∃ t ∈ r.searchOrder i, m ∈ t.methods :=
  List.mem_flatMap

/-- Whatever is declared has a first declaration, which is one of the methods. -/
theorem exists_firstDeclaration (declared : m ∈ r.declarations i) :
    ∃ first ∈ r.allMethods i, r.firstDeclaration? i m = some first ∧
      first.sameSignature m = true := by
  have some : (r.firstDeclaration? i m).isSome :=
    List.find?_isSome.mpr ⟨m, declared, Method.sameSignature_self m⟩
  obtain ⟨first, found⟩ := Option.isSome_iff_exists.mp some
  have among := (find?_allMethods r i m).trans found
  have same := List.find?_some among
  exact ⟨first, List.mem_of_find?_eq_some among, found, same⟩

end Registry

end Interop
