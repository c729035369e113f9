import Interop.Invoke
import Interop.Proofs.Marshal.Outcomes
import Interop.Proofs.Registry.Consistency

/-!
Conversion ends. An array of another type is converted element by element, and its elements may be
arrays again, among them the array itself. The rules below say which conversions such a conversion
needs and nothing about how long that goes on. But the elements are converted to the component of
the type that was asked for, so the conversions that a conversion needs are of types ever less
nested, whatever the heap is like: at most as many follow from one another as the type has
components.
-/
namespace Interop.Marshal

variable {w w' : World} {r : Registry} {v : Value} {c target : TypeId} {values : List Value}
  {components : List TypeId} {depth : Nat}

/-- Goes on after a success. -/
def andThen {α β : Type} (outcome : Task.Outcome BridgeError α) (next : α → Task BridgeError β) :
    Task.Outcome BridgeError β :=
  match outcome with
  | .ok value w => next value w
  | .error e w => .error e w

/-- An array type with component `c` takes the value neither as it is nor as a copy. -/
def Unfit (w : World) (target c : TypeId) : Value → Prop
  | .null => False
  | .object ref => ref.cls ≠ target ∧ w.heap.isArray ref = false
  | .string _ => w.registry.primitiveKind? c ≠ some .char
  | _ => True

mutual

/-- A conversion ends with an outcome, and at most `depth` conversions of elements stand within one
another until it does. -/
inductive Converts : Nat → World → TypeId → Value → Task.Outcome BridgeError Value → Prop where
  | primitive {depth : Nat} {w : World} {target : TypeId} {v : Value} {kind : PrimitiveKind}
      (isPrimitive : w.registry.primitiveKind? target = some kind) :
      Converts depth w target v (match toPrimitive? v kind with
        | some converted => .ok converted w
        | none => .error (mismatch w.registry v target) w)
  | reference {depth : Nat} {w : World} {target : TypeId} {v : Value} {t : TypeInfo}
      (found : w.registry.get? target = some t) (kind : t.kind = .cls ∨ t.kind = .interface) :
      Converts depth w target v (if w.registry.accepts target v then .ok v w
        else .error (mismatch w.registry v target) w)
  | null {depth : Nat} {w : World} {target c : TypeId}
      (array : w.registry.component? target = some c) : Converts depth w target .null (.ok .null w)
  | own {depth : Nat} {w : World} {target c : TypeId} {ref : ObjectRef}
      (array : w.registry.component? target = some c) (same : ref.cls = target) :
      Converts depth w target (.object ref) (.ok (.object ref) w)
  | copied {depth : Nat} {w : World} {target c : TypeId} {ref : ObjectRef}
      {outcome : Task.Outcome BridgeError (List Value)}
      (array : w.registry.component? target = some c) (other : ref.cls ≠ target)
      (isArray : w.heap.isArray ref = true)
      (each : ConvertsEach depth w c (w.heap.elements ref) outcome) :
      Converts (depth + 1) w target (.object ref) (andThen outcome (marshalArray c))
  | units {depth : Nat} {w : World} {target c : TypeId} {text : String}
      (array : w.registry.component? target = some c)
      (char : w.registry.primitiveKind? c = some .char) :
      Converts depth w target (.string text)
        (marshalArray c ((Text.units text).map Value.char) w)
  | refused {depth : Nat} {w : World} {target c : TypeId} {v : Value}
      (array : w.registry.component? target = some c) (unfit : Unfit w target c v) :
      Converts depth w target v (.error (mismatch w.registry v target) w)

/-- The same for values that are converted one after the other, up to the first that fails. -/
inductive ConvertsEach :
    Nat → World → TypeId → List Value → Task.Outcome BridgeError (List Value) → Prop where
  | nil {depth : Nat} {w : World} {c : TypeId} : ConvertsEach depth w c [] (.ok [] w)
  | stop {depth : Nat} {w w' : World} {c : TypeId} {v : Value} {rest : List Value}
      {e : BridgeError} (first : Converts depth w c v (.error e w')) :
      ConvertsEach depth w c (v :: rest) (.error e w')
  | next {depth : Nat} {w w' : World} {c : TypeId} {v u : Value} {rest : List Value}
      {outcome : Task.Outcome BridgeError (List Value)} (first : Converts depth w c v (.ok u w'))
      (others : ConvertsEach depth w' c rest outcome) :
      ConvertsEach depth w c (v :: rest) (andThen outcome fun us => return u :: us)

end

theorem bind_eq_andThen {α β : Type} (task : Task BridgeError α) (next : α → Task BridgeError β)
    (w : World) : (task >>= next) w = andThen (task w) next := by
  change EStateM.bind task next w = _
  unfold EStateM.bind andThen
  cases task w <;> rfl

theorem kind_of_component (array : w.registry.component? target = some c) :
    ∃ t, w.registry.get? target = some t ∧ t.kind = .array c := by
  obtain ⟨t, found, isArray⟩ := Option.bind_eq_some_iff.mp array
  exact ⟨t, found, TypeInfo.component?_eq.mp isArray⟩

theorem convertAlong_reference {t : TypeInfo} (found : w.registry.get? target = some t)
    (kind : t.kind = .cls ∨ t.kind = .interface) :
    convertAlong target components v w = if w.registry.accepts target v then .ok v w
      else .error (mismatch w.registry v target) w := by
  rw [convertAlong, Task.get_bind]
  rcases kind with kind | kind <;> simp only [found, kind] <;> split <;> rfl

section

variable (array : w.registry.component? target = some c)

include array

theorem convertAlong_null : convertAlong target components .null w = .ok .null w := by
  obtain ⟨t, found, kind⟩ := kind_of_component array
  rw [convertAlong, Task.get_bind]
  simp only [found, kind]
  rfl

theorem convertAlong_own {ref : ObjectRef} (same : ref.cls = target) :
    convertAlong target components (.object ref) w = .ok (.object ref) w := by
  obtain ⟨t, found, kind⟩ := kind_of_component array
  rw [convertAlong, Task.get_bind]
  simp only [found, kind, if_pos same]
  rfl

theorem convertAlong_copied {ref : ObjectRef} (other : ref.cls ≠ target)
    (isArray : w.heap.isArray ref = true) :
    convertAlong target (c :: components) (.object ref) w =
      andThen (convertEach (convertAlong c components) (w.heap.elements ref) w)
        (marshalArray c) := by
  obtain ⟨t, found, kind⟩ := kind_of_component array
  rw [convertAlong, Task.get_bind]
  simp only [found, kind, if_neg other, if_pos isArray]
  exact bind_eq_andThen _ _ w

theorem convertAlong_units {text : String} (char : w.registry.primitiveKind? c = some .char) :
    convertAlong target components (.string text) w =
      marshalArray c ((Text.units text).map Value.char) w := by
  obtain ⟨t, found, kind⟩ := kind_of_component array
  rw [convertAlong, Task.get_bind]
  simp only [found, kind, if_pos char]

theorem convertAlong_unfit (unfit : Unfit w target c v) :
    convertAlong target components v w = .error (mismatch w.registry v target) w := by
  obtain ⟨t, found, kind⟩ := kind_of_component array
  rw [convertAlong, Task.get_bind]
  cases v with
  | null => exact unfit.elim
  | object ref =>
    obtain ⟨other, noArray⟩ := unfit
    simp only [found, kind, if_neg other, noArray, Bool.false_eq_true, if_false]
    rfl
  | string text =>
    simp only [found, kind, if_neg unfit]
    rfl
  | _ =>
    simp only [found, kind]
    rfl

end

/-- The outcome of a conversion to an array type is that of one of the rules. -/
theorem array_rule (w : World) (target c : TypeId) (v : Value) :
    v = .null ∨ (∃ ref, v = .object ref ∧ (ref.cls = target ∨
        ref.cls ≠ target ∧ w.heap.isArray ref = true)) ∨
      (∃ text, v = .string text ∧ w.registry.primitiveKind? c = some .char) ∨
      Unfit w target c v := by
  cases v with
  | null => exact Or.inl rfl
  | object ref =>
    by_cases same : ref.cls = target
    · exact Or.inr (Or.inl ⟨ref, rfl, Or.inl same⟩)
    · cases isArray : w.heap.isArray ref with
      | true => exact Or.inr (Or.inl ⟨ref, rfl, Or.inr ⟨same, isArray⟩⟩)
      | false => exact Or.inr (Or.inr (Or.inr ⟨same, isArray⟩))
  | string text =>
    by_cases char : w.registry.primitiveKind? c = some .char
    · exact Or.inr (Or.inr (Or.inl ⟨text, rfl, char⟩))
    · exact Or.inr (Or.inr (Or.inr char))
  | _ => exact Or.inr (Or.inr (Or.inr trivial))

/-- Values are converted by the rules if each of them is. -/
theorem convertsEach_of_one {convertOne : Value → Task BridgeError Value}
    (one : ∀ {w}, World.registry w = r → ∀ v, Converts depth w c v (convertOne v w))
    (keeps : ∀ {v u w w'}, World.registry w = r → convertOne v w = .ok u w' → w'.registry = r)
    (same : w.registry = r) :
    ConvertsEach depth w c values (convertEach convertOne values w) := by
  induction values generalizing w with
  | nil => exact .nil
  | cons v rest ih =>
    have first := one same v
    cases result : convertOne v w with
    | error e w' =>
      rw [result] at first
      rw [convertEach, Task.bind_error result]
      exact .stop first
    | ok u w' =>
      rw [result] at first
      rw [convertEach, Task.bind_ok result, bind_eq_andThen]
      exact .next first (ih (keeps same result))

theorem converts_innermost {t : TypeInfo} (found : w.registry.get? target = some t)
    (noArray : t.component? = none) (v : Value) :
    Converts depth w target v (convertAlong target components v w) := by
  cases kind : t.kind with
  | primitive k =>
    have isPrimitive : w.registry.primitiveKind? target = some k := by
      simp [Registry.primitiveKind?, found, TypeInfo.primitiveKind?, kind]
    rw [convertAlong_primitive isPrimitive]
    exact .primitive isPrimitive
  | cls =>
    rw [convertAlong_reference found (Or.inl kind)]
    exact .reference found (Or.inl kind)
  | interface =>
    rw [convertAlong_reference found (Or.inr kind)]
    exact .reference found (Or.inr kind)
  | array c => simp [TypeInfo.component?, kind] at noArray

/-- The conversion along the components of a type ends within as many levels. -/
theorem converts_along (coherent : r.Coherent) (nested : Nested r target components)
    (same : w.registry = r) (v : Value) :
    Converts components.length w target v (convertAlong target components v w) := by
  induction nested generalizing w v with
  | innermost found noArray =>
    subst same
    exact converts_innermost found noArray v
  | @array target c components component below ih =>
    subst same
    have keeps : ∀ {v u w₁ w'}, World.registry w₁ = w.registry →
        convertAlong c components v w₁ = .ok u w' → w'.registry = w.registry := by
      intro v u w₁ w' same success
      exact (convertAlong_ok coherent below same success).adds.registry.trans same
    rcases array_rule w target c v with rfl | ⟨ref, rfl, own | ⟨other, isArray⟩⟩ | ⟨text, rfl, char⟩
      | unfit
    · rw [convertAlong_null component]
      exact .null component
    · rw [convertAlong_own component own]
      exact .own component own
    · rw [convertAlong_copied component other isArray]
      exact .copied component other isArray
        (convertsEach_of_one (fun same v => ih same v) keeps rfl)
    · rw [convertAlong_units component char]
      exact .units component char
    · rw [convertAlong_unfit component unfit]
      exact .refused component unfit

theorem convertsEach_eq {convertOne : Value → Task BridgeError Value}
    {outcome : Task.Outcome BridgeError (List Value)}
    (one : ∀ {w v outcome}, World.registry w = r → Converts depth w c v outcome →
      outcome = convertOne v w)
    (keeps : ∀ {v u w w'}, World.registry w = r → convertOne v w = .ok u w' → w'.registry = r)
    (same : w.registry = r) (each : ConvertsEach depth w c values outcome) :
    outcome = convertEach convertOne values w := by
  induction values generalizing w outcome with
  | nil =>
    cases each
    rfl
  | cons v rest ih =>
    cases each with
    | stop first => rw [convertEach, Task.bind_error (one same first).symm]
    | next first others =>
      have result := (one same first).symm
      rw [convertEach, Task.bind_ok result, bind_eq_andThen, ih (keeps same result) others]

/-- A conversion that has ended has done so at once, or has converted elements to the component. -/
theorem Converts.at_once_or_copied {outcome : Task.Outcome BridgeError Value}
    (run : Converts depth w target v outcome) :
    (∀ components, outcome = convertAlong target components v w) ∨
      ∃ inner c ref each, w.registry.component? target = some c ∧ v = .object ref ∧
        ref.cls ≠ target ∧ w.heap.isArray ref = true ∧
        ConvertsEach inner w c (w.heap.elements ref) each ∧
        outcome = andThen each (marshalArray c) := by
  cases run with
  | primitive isPrimitive => exact Or.inl fun _ => (convertAlong_primitive isPrimitive _ v).symm
  | reference found kind => exact Or.inl fun _ => (convertAlong_reference found kind).symm
  | null array => exact Or.inl fun _ => (convertAlong_null array).symm
  | own array same => exact Or.inl fun _ => (convertAlong_own array same).symm
  | copied array other isArray each =>
    exact Or.inr ⟨_, _, _, _, array, rfl, other, isArray, each, rfl⟩
  | units array char => exact Or.inl fun _ => (convertAlong_units array char).symm
  | refused array unfit => exact Or.inl fun _ => (convertAlong_unfit array unfit).symm

theorem Converts.eq {outcome : Task.Outcome BridgeError Value} (coherent : r.Coherent)
    (nested : Nested r target components) (same : w.registry = r)
    (run : Converts depth w target v outcome) :
    outcome = convertAlong target components v w := by
  induction nested generalizing depth w v outcome with
  | innermost found noArray =>
    subst same
    rcases run.at_once_or_copied with atOnce | ⟨_, _, _, _, array, _⟩
    · exact atOnce _
    · simp [Registry.component?, found, noArray] at array
  | array component below ih =>
    subst same
    rcases run.at_once_or_copied with atOnce | ⟨_, c, ref, _, array, rfl, other, isArray, each, rfl⟩
    · exact atOnce _
    · cases component.symm.trans array
      rw [convertAlong_copied array other isArray]
      congr 1
      refine convertsEach_eq (fun same run => ih same run) ?_ rfl each
      intro v u w₁ w' same success
      exact (convertAlong_ok coherent below same success).adds.registry.trans same

/-- Conversion to any type that is there ends, at a depth that is known before the value is. -/
structure ConversionEnds (r : Registry) : Prop where
  /-- The components of a type are finitely many, and no more conversions of elements stand within
  one another, whatever the heap and the value are. -/
  ends : ∀ {target t}, r.get? target = some t → ∃ components, Nested r target components ∧
    components.length < r.size ∧
    ∀ {w : World}, w.registry = r → ∀ v, Converts components.length w target v (convert v target w)
  /-- However deep it goes, there is one outcome. -/
  unique : ∀ {target t w v depth outcome}, r.get? target = some t → World.registry w = r →
    Converts depth w target v outcome → outcome = convert v target w

/-- Every component ranks lower, so there are fewer of them than slots. -/
theorem Nested.length_le {rank : TypeId → Nat} (nested : Nested r target components)
    (ranked : r.Ranked rank) : components.length ≤ rank target := by
  induction nested with
  | innermost => exact Nat.zero_le _
  | @array i c rest component _ ih =>
    obtain ⟨t, found, array⟩ := Option.bind_eq_some_iff.mp component
    have lower := ranked found c (by simp [TypeInfo.parents, array])
    rw [List.length_cons]
    omega

theorem conversionEnds_of_ranked {rank : TypeId → Nat} (coherent : r.Coherent)
    (ranked : r.Ranked rank) : ConversionEnds r := by
  constructor
  case ends =>
    intro target t found
    have nested := nested_of_ranked coherent ranked found
    obtain ⟨rank, ranked, _, within⟩ := ranked.bounded_root coherent
    refine ⟨_, nested, (nested.length_le ranked).trans_lt (within found), ?_⟩
    intro w same v
    rw [convert, Task.get_bind, same]
    exact converts_along coherent nested same v
  case unique =>
    intro target t w v depth outcome found same run
    rw [convert, Task.get_bind, same]
    exact run.eq coherent (nested_of_ranked coherent ranked found) same

/-- Whatever has been defined, looked up or generated, and also inside a definition, conversion ends
on every heap: also for arrays that contain themselves. -/
theorem conversion_ends (operations : List Registry.Operation)
    (resolver : TypeId → Registry.Resolver) :
    ConversionEnds (Registry.afterAll operations) ∧
      ConversionEnds ((Registry.afterAll operations).resolved resolver).2 :=
  Registry.everywhere_of_ranked conversionEnds_of_ranked operations resolver

/-- An array. -/
def loop : ObjectRef := ⟨0, ⟨20⟩⟩

/-- The world in which the array is its own only element. -/
def loopWorld : World :=
  let first := World.initial .default .always
  let typed := stateAfter ((Task.lookupType "core.Object[][][]" : Task BridgeError _) first)
  let made := stateAfter (newArray .object [.null] typed)
  stateAfter (Invoke.storeElement loop 0 (.object loop) made)

-- There are two copies, one within the other, and then the array stands for itself.
example :
    let after := stateAfter (convert (.object loop) ⟨22⟩ loopWorld)
    (loopWorld.heap.elements loop).map Value.object? = [some loop] ∧
      Task.Succeeds (convert (.object loop) ⟨22⟩) loopWorld ∧
      (after.heap.elements ⟨2, ⟨22⟩⟩).map Value.object? = [some ⟨1, ⟨21⟩⟩] ∧
      (after.heap.elements ⟨1, ⟨21⟩⟩).map Value.object? = [some loop] := by
  decide +kernel

end Interop.Marshal
