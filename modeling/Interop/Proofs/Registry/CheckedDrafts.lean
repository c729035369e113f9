import Interop.Proofs.Registry.ArrayTypes

/-!
What the checks of a definition establish. `Built` collects it for the whole type, read off a
successful check of its draft: everything that the type mentions is there, a class extends another
class that is open to extension, and no type inherits from itself.
-/
namespace Interop

theorem Except.bind_ok {ε α β : Type} {step : Except ε α} {next : α → Except ε β} {value : β}
    (success : (step >>= next) = .ok value) : ∃ x, step = .ok x ∧ next x = .ok value := by
  cases step with
  | error e => cases success
  | ok x => exact ⟨x, rfl, success⟩

/-- A check that only throws lets the rest run when it does not. -/
theorem Except.unless_ok {ε β : Type} {bad : Prop} [Decidable bad] {e : ε} {next : Except ε β}
    {value : β}
    (success : (if bad then throw e else next) = .ok value) : ¬bad ∧ next = .ok value := by
  split at success
  · cases success
  · next good => exact ⟨good, success⟩

theorem Except.mapM_ok {ε α β : Type} {f : α → Except ε β} {inputs : List α} {outputs : List β}
    (success : inputs.mapM f = .ok outputs) :
    ∀ output ∈ outputs, ∃ input ∈ inputs, f input = .ok output := by
  induction inputs generalizing outputs with
  | nil =>
    cases success
    simp
  | cons head tail ih =>
    rw [List.mapM_cons] at success
    obtain ⟨first, firstOk, success⟩ := Except.bind_ok success
    obtain ⟨rest, restOk, success⟩ := Except.bind_ok success
    cases success
    intro output member
    rcases List.mem_cons.mp member with rfl | later
    · exact ⟨head, List.mem_cons_self, firstOk⟩
    · obtain ⟨input, belongs, checked⟩ := ih restOk output later
      exact ⟨input, List.mem_cons_of_mem head belongs, checked⟩

namespace Registry

variable {r : Registry} {id : TypeId} {t u : TypeInfo} {draft : TypeDraft}

theorem checkParams_ok {member : String} {params : List TypeId}
    (success : r.checkParams member params = .ok ()) :
    ∀ p ∈ params, ∃ u, r.get? p = some u ∧ u.primitiveKind? ≠ some .void := by
  induction params with
  | nil => simp
  | cons first rest ih =>
    unfold checkParams at success
    obtain ⟨u, required, success⟩ := Except.bind_ok success
    obtain ⟨notVoid, success⟩ := Except.unless_ok success
    intro p member
    rcases List.mem_cons.mp member with rfl | later
    · exact ⟨u, require_ok required, notVoid⟩
    · exact ih success p later

theorem checkSignature_ok {params : List TypeId} {variadic : Bool} {member : String}
    (success : r.checkSignature params variadic member = .ok ()) :
    (∀ p ∈ params, ∃ u, r.get? p = some u ∧ u.primitiveKind? ≠ some .void) ∧
      (variadic = true → ∃ last c, params.getLast? = some last ∧ r.component? last = some c) := by
  unfold checkSignature at success
  obtain ⟨_, checked, success⟩ := Except.bind_ok success
  refine ⟨checkParams_ok checked, ?_⟩
  intro isVariadic
  rw [isVariadic, Bool.true_and] at success
  split at success
  · cases success
  · next present =>
    rw [Bool.not_eq_true, Option.isNone_eq_false_iff, Option.isSome_iff_exists] at present
    obtain ⟨c, bound⟩ := present
    obtain ⟨last, isLast, component⟩ := Option.bind_eq_some_iff.mp bound
    exact ⟨last, c, isLast, component⟩

theorem checkSuperclass_ok {superclass : Option TypeId}
    (success : r.checkSuperclass id draft = .ok superclass) :
    (draft.isInterface = true ∧ superclass = none) ∨
      (draft.isInterface = false ∧ ∃ s u, superclass = some s ∧ s ≠ id ∧ r.get? s = some u ∧
        u.isClass ∧
        u.modifiers.isFinal = false) := by
  unfold checkSuperclass at success
  split at success
  · next isInterface =>
    split at success
    · cases success
    · cases success
      exact Or.inl ⟨isInterface, rfl⟩
  · next isClass =>
    obtain ⟨different, success⟩ := Except.unless_ok success
    obtain ⟨u, required, success⟩ := Except.bind_ok success
    obtain ⟨extendable, success⟩ := Except.unless_ok success
    obtain ⟨open_, success⟩ := Except.unless_ok success
    cases success
    refine Or.inr ⟨by simpa using isClass, _, u, rfl, different, require_ok required, ?_, ?_⟩
    · simpa using extendable
    · simpa using open_

theorem checkInterfaces_ok {name : String} {interfaces : List TypeId}
    (success : r.checkInterfaces id name interfaces = .ok ()) :
    ∀ j ∈ interfaces, j ≠ id ∧ ∃ u, r.get? j = some u ∧ u.isInterface := by
  induction interfaces with
  | nil => simp
  | cons first rest ih =>
    unfold checkInterfaces at success
    obtain ⟨different, success⟩ := Except.unless_ok success
    obtain ⟨u, required, success⟩ := Except.bind_ok success
    obtain ⟨isInterface, success⟩ := Except.unless_ok success
    intro j member
    rcases List.mem_cons.mp member with rfl | later
    · exact ⟨different, u, require_ok required, by simpa using isInterface⟩
    · exact ih success j later

theorem checkMethod_ok {inInterface : Bool} {m : MethodDraft} {method : Method}
    (success : r.checkMethod id inInterface m = .ok method) :
    method = buildMethod id inInterface m ∧ (∀ p ∈ m.params, ∃ u, r.get? p = some u) ∧
      ∀ j, m.returns = some j → ∃ u, r.get? j = some u := by
  unfold checkMethod at success
  obtain ⟨_, signature, success⟩ := Except.bind_ok success
  have params : ∀ p ∈ m.params, ∃ u, r.get? p = some u := by
    intro p member
    obtain ⟨u, found, _⟩ := (checkSignature_ok signature).1 p member
    exact ⟨u, found⟩
  split at success
  · next j returns =>
    obtain ⟨u, required, success⟩ := Except.bind_ok success
    cases success
    refine ⟨rfl, params, ?_⟩
    rintro j' same
    rw [returns] at same
    cases same
    exact ⟨u, require_ok required⟩
  · next returns =>
    cases success
    refine ⟨rfl, params, ?_⟩
    intro j same
    rw [returns] at same
    cases same

theorem checkConstructor_ok {c : ConstructorDraft} {constructor : Constructor}
    (success : r.checkConstructor id c = .ok constructor) :
    constructor = ⟨id, c.params, c.modifiers, c.variadic, c.body⟩ ∧ ∀ p ∈ c.params, ∃ u, r.get? p =
      some u := by
  unfold checkConstructor at success
  obtain ⟨_, signature, success⟩ := Except.bind_ok success
  cases success
  refine ⟨rfl, ?_⟩
  intro p member
  obtain ⟨u, found, _⟩ := (checkSignature_ok signature).1 p member
  exact ⟨u, found⟩

theorem checkField_ok {f : FieldDraft} {field : Field} (success : r.checkField id f = .ok field) :
    field.declaring = id ∧ field.type = f.type ∧ (∃ u, r.get? f.type = some u) ∧
      (f.default = some field.default ∨ field.default = .null ∨
        ∃ kind, field.default = .zero kind) := by
  unfold checkField at success
  obtain ⟨u, required, success⟩ := Except.bind_ok success
  have live : ∃ u, r.get? f.type = some u := ⟨u, require_ok required⟩
  dsimp only at success
  split at success
  · next value given =>
    split at success
    · cases success
      exact ⟨rfl, rfl, live, Or.inl given⟩
    · cases success
  · cases success
    refine ⟨rfl, rfl, live, ?_⟩
    cases kind : u.primitiveKind? with
    | none => exact Or.inr (Or.inl rfl)
    | some k => exact Or.inr (Or.inr ⟨k, rfl⟩)

/-- What a checked draft gives: the type of the slot `slot`, not yet in it. -/
structure Built (r : Registry) (slot : TypeId) (t : TypeInfo) : Prop where
  own_id : t.id = slot
  plain : t.generated = false
  kind : t.kind = .cls ∨ t.kind = .interface
  superclass : ∀ s, t.superclass = some s → s ≠ slot ∧ ∃ u, r.get? s = some u ∧ u.isClass ∧
    u.modifiers.isFinal = false
  rooted : t.isClass → ∃ s, t.superclass = some s
  interface_alone : t.isInterface → t.superclass = none
  interfaces : ∀ j ∈ t.interfaces, j ≠ slot ∧ ∃ u, r.get? j = some u ∧ u.isInterface
  memberTypes : ∀ j ∈ t.memberTypes, ∃ u, r.get? j = some u
  own_methods : ∀ m ∈ t.methods, m.declaring = t.id
  own_constructors : ∀ c ∈ t.constructors, c.declaring = t.id
  own_fields : ∀ f ∈ t.fields, f.declaring = t.id

theorem Coherent.void (coherent : Coherent r) : ∃ u, r.get? .void = some u := by
  have listed : ∃ t ∈ firstTypes, t.id = TypeId.void := by decide
  obtain ⟨t, member, id⟩ := listed
  exact ⟨t, id ▸ (coherent.first member).1⟩

theorem buildType_ok (coherent : Coherent r) (success : r.buildType id draft = .ok t) :
    Built r id t := by
  unfold buildType at success
  obtain ⟨superclass, superclassOk, success⟩ := Except.bind_ok success
  obtain ⟨_, interfacesOk, success⟩ := Except.bind_ok success
  obtain ⟨_, success⟩ := Except.unless_ok success
  obtain ⟨methods, methodsOk, success⟩ := Except.bind_ok success
  obtain ⟨constructors, constructorsOk, success⟩ := Except.bind_ok success
  obtain ⟨fields, fieldsOk, success⟩ := Except.bind_ok success
  cases success
  have extended := checkSuperclass_ok superclassOk
  constructor
  case own_id => exact rfl
  case plain => exact rfl
  case kind => cases draft.isInterface <;> simp
  case superclass =>
    rintro s rfl
    rcases extended with ⟨_, none⟩ | ⟨_, s', u, same, facts⟩
    · cases none
    · cases same
      exact ⟨facts.1, u, facts.2⟩
  case rooted =>
    intro isClass
    rcases extended with ⟨isInterface, _⟩ | ⟨_, s, u, same, _⟩
    · simp [TypeInfo.isClass, isInterface] at isClass
    · exact ⟨s, same⟩
  case interface_alone =>
    intro isInterface
    rcases extended with ⟨_, none⟩ | ⟨isClass, _⟩
    · exact none
    · simp [TypeInfo.isInterface, isClass] at isInterface
  case interfaces => exact checkInterfaces_ok interfacesOk
  case memberTypes =>
    intro j member
    simp only [TypeInfo.memberTypes, List.mem_append, List.mem_flatMap, List.mem_map,
      List.mem_cons] at member
    rcases member with (⟨m, declared, mentioned⟩ | ⟨c, declared, mentioned⟩) | ⟨f, declared, rfl⟩
    · obtain ⟨d, _, checked⟩ := Except.mapM_ok methodsOk m declared
      obtain ⟨rfl, params, returns⟩ := checkMethod_ok checked
      rcases mentioned with rfl | param
      · cases given : d.returns with
        | none =>
          rw [buildMethod, given]
          exact coherent.void
        | some j =>
          rw [buildMethod, given]
          exact returns j given
      · exact params j param
    · obtain ⟨d, _, checked⟩ := Except.mapM_ok constructorsOk c declared
      obtain ⟨rfl, params⟩ := checkConstructor_ok checked
      exact params j mentioned
    · obtain ⟨d, _, checked⟩ := Except.mapM_ok fieldsOk f declared
      obtain ⟨_, type, live, _⟩ := checkField_ok checked
      rw [type]
      exact live
  case own_methods =>
    intro m declared
    obtain ⟨d, _, checked⟩ := Except.mapM_ok methodsOk m declared
    rw [(checkMethod_ok checked).1]
    rfl
  case own_constructors =>
    intro c declared
    obtain ⟨d, _, checked⟩ := Except.mapM_ok constructorsOk c declared
    rw [(checkConstructor_ok checked).1]
  case own_fields =>
    intro f declared
    obtain ⟨d, _, checked⟩ := Except.mapM_ok fieldsOk f declared
    exact (checkField_ok checked).1

theorem Built.component? (built : Built r id t) : t.component? = none := by
  rcases built.kind with kind | kind <;> simp [TypeInfo.component?, kind]

theorem Built.isPrimitive (built : Built r id t) : t.isPrimitive = false := by
  rcases built.kind with kind | kind <;> simp [TypeInfo.isPrimitive, TypeInfo.primitiveKind?, kind]

theorem Built.supers (built : Built r id t) : ∀ s ∈ t.supers, s ≠ id ∧ ∃ u, r.get? s = some u ∧
    u.component? = none := by
  intro s member
  rcases List.mem_append.mp member with superclass | interface
  · obtain ⟨different, u, found, isClass, _⟩ := built.superclass s (Option.mem_toList.mp superclass)
    refine ⟨different, u, found, ?_⟩
    cases kind : u.kind <;> simp_all [TypeInfo.isClass, TypeInfo.component?]
  · obtain ⟨different, u, found, isInterface⟩ := built.interfaces s interface
    refine ⟨different, u, found, ?_⟩
    cases kind : u.kind <;> simp_all [TypeInfo.isInterface, TypeInfo.component?]

/-- A checked type fits into its own slot. -/
theorem Built.fits (built : Built r id t) (found : r.get? id = some u) : Fits (r.fill t) t := by
  have get := get?_fill (r := r) (t := t) (by rw [built.own_id]; exact inRange_of_get? found)
  have other : ∀ {j}, j ≠ id → (r.fill t).get? j = r.get? j := by
    intro j different
    rw [get, if_neg (by rwa [built.own_id])]
  have keep : ∀ {j v}, r.get? j = some v → ∃ v', (r.fill t).get? j = some v' := by
    intro j v there
    by_cases same : j = id
    · exact ⟨t, by rw [get, if_pos (by rw [built.own_id, same])]⟩
    · exact ⟨v, by rw [other same, there]⟩
  have noArray : ∀ c, t.kind ≠ .array c := by
    intro c array
    rw [← TypeInfo.component?_eq, built.component?] at array
    cases array
  constructor
  case mentions =>
    intro j member
    rw [TypeInfo.mentions, TypeInfo.parents, built.component?, Option.toList_none, List.append_nil,
      List.mem_append] at member
    rcases member with super | memberType
    · obtain ⟨_, v, there, _⟩ := built.supers j super
      exact keep there
    · obtain ⟨v, there⟩ := built.memberTypes j memberType
      exact keep there
  case superclass =>
    intro s superclass
    obtain ⟨different, v, there, facts⟩ := built.superclass s superclass
    exact ⟨v, by rw [other different, there], facts⟩
  case interfaces =>
    intro j member
    obtain ⟨different, v, there, facts⟩ := built.interfaces j member
    exact ⟨v, by rw [other different, there], facts⟩
  case component =>
    intro c array
    exact absurd array (noArray c)
  case interface_alone => exact built.interface_alone
  case array_shape =>
    intro c array
    exact absurd array (noArray c)
  case primitive_first =>
    intro primitive
    rw [built.isPrimitive] at primitive
    cases primitive
  case own_methods => exact built.own_methods
  case own_constructors => exact built.own_constructors
  case own_fields => exact built.own_fields

end Registry

end Interop
