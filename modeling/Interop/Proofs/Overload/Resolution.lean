import Interop.Proofs.Overload.Selection
import Interop.Proofs.Registry.Inheritance

/-!
What the errors of method resolution say. A name is not found if no type above declares it, access
fails if it is declared and the first declaration of every signature is out of reach, and a match
fails if there is a choice and no candidate takes the arguments. Candidates are found in one pass
over the hierarchy, and hidden methods in another; the two passes agree because both go by the first
declaration of a signature.
-/
namespace Interop

namespace Registry

variable {r : Registry} {rank : TypeId → Nat} {type : TypeId} {name : String} {m : Method}

/-- A method that the type or a type above it declares. -/
def DeclaredAbove (r : Registry) (type : TypeId) (m : Method) : Prop :=
  ∃ j u, r.isAssignable type j = true ∧ r.get? j = some u ∧ m ∈ u.methods

theorem mem_declarations_iff (coherent : Coherent r) (ranked : Ranked r rank) :
    m ∈ r.declarations type ↔ DeclaredAbove r type m := by
  rw [mem_declarations]
  constructor
  · rintro ⟨u, listed, declared⟩
    obtain ⟨j, there, n, path⟩ := (mem_searchOrder_of_ranked coherent ranked).mp listed
    exact ⟨j, u, (hops_isSome coherent ranked).mpr (below_of_path path), there, declared⟩
  · rintro ⟨j, u, assignable, there, declared⟩
    have path := path_of_method coherent ranked assignable there declared
    exact ⟨u, (mem_searchOrder_of_ranked coherent ranked).mpr ⟨j, there, path⟩, declared⟩

theorem mem_methods_iff :
    m ∈ r.methods type ↔
      r.firstDeclaration? type m = some m ∧ m.modifiers.isAccessible = true := by
  rw [methods, List.mem_filter, mem_allMethods_iff]

theorem distinct_methods (r : Registry) (type : TypeId) : Distinct (r.methods type) :=
  (distinct_allMethods r type).filter _

/-- A declared signature is listed if its first declaration is within reach. -/
theorem listed_iff_accessible {first : Method} (found : r.firstDeclaration? type m = some first) :
    (∃ own ∈ r.methods type, own.sameSignature m = true) ↔
      first.modifiers.isAccessible = true := by
  have among := (find?_allMethods r type m).trans found
  have same := List.find?_some among
  constructor
  · rintro ⟨own, listed, matching⟩
    obtain ⟨itself, accessible⟩ := mem_methods_iff.mp listed
    rw [firstDeclaration?] at itself found
    simp only [Method.sameSignature_congr matching, found, Option.some.injEq] at itself
    rwa [itself]
  · intro accessible
    exact ⟨first, List.mem_filter.mpr ⟨List.mem_of_find?_eq_some among, accessible⟩, same⟩

/-- The methods of a name that script code can reach. -/
def accessible (r : Registry) (type : TypeId) (name : String) : List Method :=
  (r.methods type).filter (fun m => m.name == name)

theorem mem_accessible : m ∈ r.accessible type name ↔ m ∈ r.methods type ∧ m.name = name := by
  simp [accessible]

/-- The first declaration of every signature of the name is out of reach. -/
def Hidden (r : Registry) (type : TypeId) (name : String) : Prop :=
  ∀ m, DeclaredAbove r type m → m.name = name →
    ∀ first, r.firstDeclaration? type m = some first → first.modifiers.isAccessible = false

theorem accessible_eq_nil (coherent : Coherent r) (ranked : Ranked r rank) :
    r.accessible type name = [] ↔ Hidden r type name := by
  rw [List.eq_nil_iff_forall_not_mem]
  constructor
  · intro none m declared named first found
    by_contra accessible
    obtain ⟨own, listed, same⟩ :=
      (listed_iff_accessible found).mpr (Bool.not_eq_false _ ▸ accessible)
    have sameName := (Method.sameSignature_iff.mp same).1
    exact none own (mem_accessible.mpr ⟨listed, sameName.trans named⟩)
  · intro hidden m member
    obtain ⟨listed, named⟩ := mem_accessible.mp member
    obtain ⟨found, accessible⟩ := mem_methods_iff.mp listed
    have declared := (mem_declarations_iff coherent ranked).mp (List.mem_of_find?_eq_some found)
    rw [hidden m declared named m found] at accessible
    cases accessible

theorem hasRestrictedMethod_iff :
    r.hasRestrictedMethod type name = true ↔
      ∃ m ∈ r.allMethods type, m.name = name ∧ m.modifiers.isAccessible = false := by
  simp [hasRestrictedMethod]

theorem declared_of_restricted (coherent : Coherent r) (ranked : Ranked r rank)
    (restricted : r.hasRestrictedMethod type name = true) :
    ∃ m, DeclaredAbove r type m ∧ m.name = name := by
  obtain ⟨m, member, named, _⟩ := hasRestrictedMethod_iff.mp restricted
  have declared := List.mem_of_find?_eq_some (mem_allMethods_iff.mp member)
  exact ⟨m, (mem_declarations_iff coherent ranked).mp declared, named⟩

/-- What is declared and out of reach is restricted. -/
theorem Hidden.restricted (hidden : Hidden r type name) (coherent : Coherent r)
    (ranked : Ranked r rank) (declared : DeclaredAbove r type m) (named : m.name = name) :
    r.hasRestrictedMethod type name = true := by
  obtain ⟨first, member, found, same⟩ :=
    exists_firstDeclaration ((mem_declarations_iff coherent ranked).mpr declared)
  have sameName := (Method.sameSignature_iff.mp same).1
  exact hasRestrictedMethod_iff.mpr
    ⟨first, member, sameName.trans named, hidden m declared named first found⟩

end Registry

namespace Overload

variable {r : Registry} {rank : TypeId → Nat}

/-- What the resolution of a method call on an instance gives, and what its errors mean. -/
structure ResolvesMethod (r : Registry) (memo : Memo) (type : TypeId) (name : String)
    (args : List Value) : Prop where
  distinct : Registry.Distinct (r.methods type)
  /-- A signature that is declared has a first declaration, and it is listed if that one is within
  reach. -/
  listed_iff : ∀ {m}, r.DeclaredAbove type m → ∃ first, r.firstDeclaration? type m = some first ∧
    ((∃ own ∈ r.methods type, own.sameSignature m = true) ↔ first.modifiers.isAccessible = true)
  notFound_iff :
    (chooseMethod r type name args true memo).1 =
        .error (.notFound (.method name (r.typeName type))) ↔
      ∀ m, r.DeclaredAbove type m → m.name ≠ name
  accessFailure_iff :
    (chooseMethod r type name args true memo).1 =
        .error (.accessFailure (.method name (r.typeName type))) ↔
      (∃ m, r.DeclaredAbove type m ∧ m.name = name) ∧ r.Hidden type name
  noMatch_iff :
    (chooseMethod r type name args true memo).1 =
        .error (.noMatch ("method " ++ r.typeName type ++ "." ++ name) (describeArguments r args)) ↔
      Unmatched Method.signature (fun m => callScore r memo args m.signature)
        (r.accessible type name) args
  /-- There is no other error, and what is chosen is within reach. -/
  otherwise :
    (∃ m ∈ r.accessible type name, (chooseMethod r type name args true memo).1 = .ok m) ∨
      (chooseMethod r type name args true memo).1 ∈ [
        .error (.notFound (.method name (r.typeName type))),
        .error (.accessFailure (.method name (r.typeName type))),
        .error (.noMatch ("method " ++ r.typeName type ++ "." ++ name) (describeArguments r args))]

theorem methodCandidates_instance (r : Registry) (type : TypeId) (name : String) :
    methodCandidates r type name true = r.accessible type name := by
  simp [methodCandidates, Registry.accessible]

theorem chooseMethod_outcome (r : Registry) (type : TypeId) (name : String) (args : List Value)
    (memo : Memo) :
    ChoiceOutcome Method.signature (fun m => callScore r memo args m.signature)
      (r.accessible type name) args
      (if r.hasRestrictedMethod type name then .accessFailure (.method name (r.typeName type))
        else .notFound (.method name (r.typeName type)))
      (.noMatch ("method " ++ r.typeName type ++ "." ++ name) (describeArguments r args))
      (chooseMethod r type name args true memo).1 := by
  rw [← methodCandidates_instance]
  exact choose_outcome r Method.signature name _ args _ _ memo

theorem resolvesMethod_of_ranked (coherent : r.Coherent) (ranked : r.Ranked rank) (memo : Memo)
    (type : TypeId) (name : String) (args : List Value) : ResolvesMethod r memo type name args := by
  have outcome := chooseMethod_outcome r type name args memo
  have hidden_iff : r.accessible type name = [] ↔ r.Hidden type name :=
    Registry.accessible_eq_nil coherent ranked
  constructor
  case distinct => exact Registry.distinct_methods r type
  case listed_iff =>
    intro m declared
    have listed := (Registry.mem_declarations_iff coherent ranked).mpr declared
    obtain ⟨first, _, found, _⟩ := Registry.exists_firstDeclaration listed
    exact ⟨first, found, Registry.listed_iff_accessible found⟩
  case notFound_iff =>
    by_cases restricted : r.hasRestrictedMethod type name = true
    · obtain ⟨m, declared, named⟩ := Registry.declared_of_restricted coherent ranked restricted
      rw [if_pos restricted] at outcome
      refine iff_of_false ?_ fun none => none m declared named
      exact outcome.not_error (by simp) (by simp)
    · rw [if_neg restricted] at outcome
      rw [outcome.absent_iff (by simp), hidden_iff]
      constructor
      · exact fun hidden m declared named =>
          restricted (hidden.restricted coherent ranked declared named)
      · exact fun none m declared named => absurd named (none m declared)
  case accessFailure_iff =>
    by_cases restricted : r.hasRestrictedMethod type name = true
    · have declared := Registry.declared_of_restricted coherent ranked restricted
      rw [if_pos restricted] at outcome
      rw [outcome.absent_iff (by simp), hidden_iff]
      exact ⟨fun hidden => ⟨declared, hidden⟩, And.right⟩
    · rw [if_neg restricted] at outcome
      refine iff_of_false (outcome.not_error (by simp) (by simp)) ?_
      rintro ⟨⟨m, declared, named⟩, hidden⟩
      exact restricted (hidden.restricted coherent ranked declared named)
  case noMatch_iff =>
    refine outcome.noMatch_iff ?_
    split <;> simp
  case otherwise =>
    rcases outcome.ok_or_error with chosen | absent | noMatch
    · exact Or.inl chosen
    · rw [absent]
      split <;> simp
    · rw [noMatch]
      simp

/-- Whatever has been defined, looked up or generated, the errors of method resolution mean what
they say, also inside a definition. -/
theorem resolution_errors_meant (operations : List Registry.Operation)
    (resolver : TypeId → Registry.Resolver) (memo : Memo) (type : TypeId) (name : String)
    (args : List Value) :
    ResolvesMethod (Registry.afterAll operations) memo type name args ∧
      ResolvesMethod ((Registry.afterAll operations).resolved resolver).2 memo type name args :=
  Registry.everywhere_of_ranked
    (fun coherent ranked => resolvesMethod_of_ranked coherent ranked memo type name args)
    operations resolver

end Overload

end Interop
