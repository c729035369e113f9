import Mathlib.Order.Defs.Unbundled
import Interop.Proofs.World.Preparation

/-!
Frames: how a task changes the world at most, whether it succeeds or fails. The change is any
relation of worlds that is reflexive and transitive. The rules take a task apart as it was put
together, and marshalling is done once for all relations that the making of an array stays in.
-/
namespace Interop

variable {R : World → World → Prop}

namespace Task

variable {ε ε' α β : Type} {w w' : World}

/-- Whether it succeeds or fails, the task leads from the world to one that it is related to. -/
def Stays (R : World → World → Prop) (task : Task ε α) (w : World) : Prop :=
  R w (stateAfter (task w))

theorem Stays.ok {task : Task ε α} {value : α} (stays : task.Stays R w)
    (success : task w = .ok value w') : R w w' := by
  unfold Stays at stays
  rwa [success] at stays

theorem Stays.error {task : Task ε α} {e : ε} (stays : task.Stays R w)
    (failure : task w = .error e w') : R w w' := by
  unfold Stays at stays
  rwa [failure] at stays

theorem Stays.mapError {task : Task ε α} (stays : task.Stays R w) (f : ε → ε') :
    (task.mapError f).Stays R w := by
  unfold Stays Task.mapError
  cases result : task w with
  | ok value w' => exact stays.ok result
  | error e w' => exact stays.error result

theorem Stays.outcome {task : Task ε α} (stays : task.Stays R w) :
    (task.outcome : Task ε' (Except ε α)).Stays R w := by
  unfold Stays Task.outcome
  cases result : task w with
  | ok value w' => exact stays.ok result
  | error e w' => exact stays.error result

theorem Stays.get {next : World → Task ε α} (rest : (next w).Stays R w) :
    (MonadState.get >>= next).Stays R w :=
  rest

theorem Stays.store (updated : R w w') : (MonadStateOf.set w' : Task ε PUnit).Stays R w := updated

theorem Stays.modify {f : World → World} (updated : R w (f w)) :
    (modify f : Task ε PUnit).Stays R w :=
  updated

/-- An operation of the registry. -/
theorem stays_onRegistry {operation : EStateM NativeError Registry α}
    (updated : R w { w with registry := stateAfter (operation w.registry) }) :
    (onRegistry operation).Stays R w := by
  unfold Stays onRegistry
  generalize operation w.registry = result at updated
  cases result <;> exact updated

variable [IsPreorder World R]

theorem Stays.pure (a : α) : (Pure.pure a : Task ε α).Stays R w := refl_of R w

theorem Stays.throw (e : ε) : (MonadExcept.throw e : Task ε α).Stays R w := refl_of R w

/-- A task in a narrower relation comes first. -/
theorem Stays.bind_of {S : World → World → Prop} {task : Task ε β} {next : β → Task ε α}
    (first : task.Stays S w) (weaker : ∀ {w w' : World}, S w w' → R w w')
    (rest : ∀ b w', S w w' → (next b).Stays R w') : (task >>= next).Stays R w := by
  change R w (stateAfter (EStateM.bind task next w))
  unfold EStateM.bind
  cases result : task w with
  | error e w' => exact weaker (first.error result)
  | ok b w' => exact trans_of R (weaker (first.ok result)) (rest b w' (first.ok result))

theorem Stays.bind {task : Task ε β} {next : β → Task ε α} (first : task.Stays R w)
    (rest : ∀ b w', R w w' → (next b).Stays R w') : (task >>= next).Stays R w :=
  first.bind_of id rest

theorem Stays.set {next : PUnit → Task ε α} (updated : R w w') (rest : (next ⟨⟩).Stays R w') :
    (MonadStateOf.set w' >>= next).Stays R w :=
  trans_of R updated rest

theorem Stays.ofExcept {result : Except ε β} {next : β → Task ε α}
    (rest : ∀ b, result = .ok b → (next b).Stays R w) :
    (Task.ofExcept result >>= next).Stays R w := by
  cases result with
  | error e => exact refl_of R w
  | ok b => exact rest b rfl

theorem Stays.result (result : Except ε α) : (Task.ofExcept result).Stays R w := by
  cases result <;> exact refl_of R w

/-- A check that only throws. -/
theorem Stays.guard {bad : Prop} [Decidable bad] {e : ε} {next : PUnit → Task ε α}
    (rest : ¬bad → (next ⟨⟩).Stays R w) :
    (if bad then MonadExcept.throw e >>= next else next ⟨⟩ : Task ε α).Stays R w := by
  split
  · exact refl_of R w
  · next good => exact rest good

end Task

open Interop.Task (Stays)

variable [IsPreorder World R] {w : World}

namespace Marshal

/-- The making of an array stays in the relation. -/
def ArraysStay (R : World → World → Prop) : Prop :=
  ∀ component elements w, (newArray component elements).Stays R w

/-- An array is made of its type and its elements. -/
theorem arraysStay_of
    (arrayOf : ∀ component {w}, (Task.onRegistry (Registry.arrayOf component)).Stays R w)
    (newElements : ∀ (w : World) cls elements,
      R w { w with heap := (w.heap.alloc ⟨cls, .elements elements, none⟩).2 }) : ArraysStay R := by
  intro component elements w
  refine (arrayOf component).bind fun array w₁ _ => .get (.ofExcept fun _ _ => ?_)
  exact .set (newElements w₁ array elements) (.pure _)

theorem ArraysStay.marshalArray (arrays : ArraysStay R) (component : TypeId)
    (elements : List Value) : (marshalArray component elements).Stays R w :=
  ((arrays component elements w).bind fun _ _ _ => .pure _).mapError _

mutual

theorem ArraysStay.unwrap (arrays : ArraysStay R) : ∀ (value : ScriptValue) {w : World},
    (unwrap value).Stays R w
  | .null, _ => .pure _
  | .boolean _, _ => .pure _
  | .short _, _ => .pure _
  | .int _, _ => .pure _
  | .long _, _ => .pure _
  | .float _, _ => .pure _
  | .double _, _ => .pure _
  | .string _, _ => .pure _
  | .instance id, _ => by
    unfold Marshal.unwrap
    refine .get ?_
    split <;> exact .pure _
  | .array items, _ => by
    unfold Marshal.unwrap
    exact (arrays.unwrapAll items).bind fun elements _ _ => arrays.marshalArray _ elements
  | .typedArray items, _ => by
    unfold Marshal.unwrap
    exact arrays.marshalArray _ _
  | .cls _, _ => .get (.throw _)
  | .dict _, _ => .throw _
  | .function _, _ => .throw _

theorem ArraysStay.unwrapAll (arrays : ArraysStay R) : ∀ (values : List ScriptValue) {w : World},
    (unwrapAll values).Stays R w
  | [], _ => .pure _
  | value :: rest, _ => by
    unfold Marshal.unwrapAll
    refine (arrays.unwrap value).bind fun _ _ _ => ?_
    exact (arrays.unwrapAll rest).bind fun _ _ _ => .pure _

end

theorem stays_convertEach {convert : Value → Task BridgeError Value}
    (one : ∀ v {w}, (convert v).Stays R w) (values : List Value) :
    (convertEach convert values).Stays R w := by
  induction values generalizing w with
  | nil => exact .pure _
  | cons value rest ih => exact (one value).bind fun _ _ _ => ih.bind fun _ _ _ => .pure _

/-- Conversion to one type, if conversion to its component stays in the relation. -/
theorem ArraysStay.convertAlong_step (arrays : ArraysStay R) (target : TypeId)
    {components : List TypeId}
    (deeper : ∀ {next rest}, components = next :: rest → ∀ v {w},
      (convertAlong next rest v).Stays R w) (value : Value) :
    (convertAlong target components value).Stays R w := by
  unfold Marshal.convertAlong
  refine .get ?_
  split
  · exact .throw _
  · split
    · split
      · exact .pure _
      · exact .throw _
    · split
      · exact .pure _
      · exact .throw _
    · split
      · exact .pure _
      · exact .throw _
    · split
      · exact .pure _
      · split
        · exact .pure _
        · split
          · split
            · exact .throw _
            · refine (stays_convertEach (deeper rfl) _).bind fun elements _ _ => ?_
              exact arrays.marshalArray _ elements
          · exact .throw _
      · split
        · exact arrays.marshalArray _ _
        · exact .throw _
      · exact .throw _

theorem ArraysStay.convertAlong (arrays : ArraysStay R) (target : TypeId)
    (components : List TypeId) (value : Value) :
    (convertAlong target components value).Stays R w := by
  induction components generalizing target value w with
  | nil =>
    apply arrays.convertAlong_step
    intro next rest impossible
    cases impossible
  | cons next rest ih =>
    apply arrays.convertAlong_step
    intro next' rest' same v w
    cases same
    exact ih next v

theorem ArraysStay.convert (arrays : ArraysStay R) (value : Value) (target : TypeId) :
    (convert value target).Stays R w :=
  .get (arrays.convertAlong _ _ _)

theorem ArraysStay.convertPairs (arrays : ArraysStay R) (pairs : List (Value × TypeId)) :
    (convertPairs pairs).Stays R w := by
  induction pairs generalizing w with
  | nil => exact .pure _
  | cons pair rest ih =>
    exact (arrays.convert _ _).bind fun _ _ _ => ih.bind fun _ _ _ => .pure _

theorem ArraysStay.convertArguments (arrays : ArraysStay R) (args : List Value)
    (params : List TypeId) (variadic : Bool) :
    (convertArguments args params variadic).Stays R w := by
  unfold Marshal.convertArguments
  split
  · exact .guard fun _ => arrays.convertPairs _
  · split
    · exact .throw _
    · dsimp only
      refine .guard fun _ => .get ?_
      split
      · exact .throw _
      · refine (arrays.convertPairs _).bind fun front _ _ => ?_
        refine (arrays.convertPairs _).bind fun rest _ _ => ?_
        exact (arrays.marshalArray _ rest).bind fun packed _ _ => .pure _

/-- The wrapping of an object stays in the relation. -/
def WrapsStay (R : World → World → Prop) : Prop :=
  ∀ object w, (Task.wrapObject object : Task BridgeError HandleId).Stays R w

theorem WrapsStay.toScript {ε : Type} (wraps : WrapsStay R) (value : Value) :
    (toScript value : Task ε ScriptValue).Stays R w := by
  cases value with
  | object ref =>
    refine .get ?_
    split
    · exact .pure _
    · exact Stays.bind (wraps ref w) fun _ _ _ => .pure _
  | _ => exact .pure _

theorem WrapsStay.toScriptAll {ε : Type} (wraps : WrapsStay R) (values : List Value) :
    (toScriptAll values : Task ε (List ScriptValue)).Stays R w := by
  induction values generalizing w with
  | nil => exact .pure _
  | cons value rest ih =>
    exact (wraps.toScript value).bind fun _ _ _ => ih.bind fun _ _ _ => .pure _

end Marshal

open Marshal (WrapsStay)

namespace Invoke

theorem stays_receiverHandle {ε : Type} (wraps : WrapsStay R)
    (holds : ∀ (w : World) value, R w (w.hold value)) (dispatcher : DispatcherId)
    (receiver : ObjectRef) : (receiverHandle dispatcher receiver : Task ε HandleId).Stays R w := by
  refine .get ?_
  split
  · split
    · exact .set (holds w _) (.pure _)
    · exact wraps receiver w
  · exact wraps receiver w

theorem stays_getField (f : Field) (receiver : Option ObjectRef) :
    (getField f receiver).Stays R w := by
  refine .get ?_
  split
  · exact .ofExcept fun _ _ => .pure _
  · split
    · exact .throw _
    · split
      · exact .pure _
      · exact .throw _

theorem stays_setField (f : Field) (receiver : Option ObjectRef) (value : Value)
    (static : R w { w with heap := w.heap.setStatic f.declaring f.name value })
    (onInstance : ∀ {object heap}, w.heap.setField? object f.name value = some heap →
      R w { w with heap := heap }) :
    (setField f receiver value).Stays R w := by
  refine .get (.guard fun _ => .guard fun _ => ?_)
  split
  · exact .ofExcept fun _ _ => .store static
  · split
    · exact .throw _
    · split
      · next written => exact .store (onInstance written)
      · exact .throw _

end Invoke

theorem Proxy.stays_getField (wraps : WrapsStay R) (proxy : Proxy) (name : String) :
    (proxy.getField name).Stays R w := by
  refine .get (.ofExcept fun f _ => ?_)
  refine (Stays.mapError (Invoke.stays_getField f _) _).bind fun value _ _ => ?_
  exact wraps.toScript value

theorem Proxy.stays_setField (arrays : Marshal.ArraysStay R) (proxy : Proxy) (name : String)
    (value : ScriptValue)
    (writes : ∀ f receiver value {w}, (Invoke.setField f receiver value).Stays R w) :
    (proxy.setField name value).Stays R w := by
  refine .get (.ofExcept fun f _ => ?_)
  refine (arrays.unwrap value).bind fun unwrapped _ _ => ?_
  refine (arrays.convert unwrapped f.type).bind fun converted _ _ => ?_
  exact Stays.mapError (writes f _ converted) _

namespace Bridge

theorem stays_checkRegistered : checkRegistered.Stays R w := by
  refine .get ?_
  split
  · exact .throw _
  · exact .pure _

theorem stays_requireType {name : String}
    (lookup : (Task.lookupType name : Task BridgeError _).Stays R w) :
    (requireType name).Stays R w := by
  unfold requireType
  refine .guard fun _ => lookup.bind fun found _ _ => ?_
  split
  · exact .pure _
  · exact .throw _

end Bridge

end Interop
