import Interop.Proofs.Dispatch.SuperViews
import Interop.Proofs.Registry.Rollback
import Interop.Proofs.World.FieldTyping
import Interop.Proofs.World.Views

/-!
Failures before anything is entered. A call, a new instance, a cast, a write to a field and a change
of overrides go through several stages that may fail: names are looked up, arguments unwrapped, a
member chosen, arguments converted, overrides read. Until a method or a constructor is entered,
these stages may have made arrays and their types and may have measured distances, and nothing else
has changed. A write that succeeds changes one slot, and new overrides go to one dispatcher.
-/
namespace Interop

open Interop.Task (Stays)

variable {w w' w'' : World} {e : BridgeError}

/-- The second memo has all distances of the first. -/
structure Overload.Memo.Grows (memo memo' : Overload.Memo) : Prop where
  enabled : memo'.enabled = memo.enabled
  entries : ∀ {key found}, memo.entries.lookup key = some found →
    memo'.entries.lookup key = some found

namespace Overload

variable {memo memo' memo'' : Memo}

theorem Memo.Grows.refl (memo : Memo) : memo.Grows memo := ⟨rfl, fun entry => entry⟩

theorem Memo.Grows.trans (first : memo.Grows memo') (second : memo'.Grows memo'') :
    memo.Grows memo'' :=
  ⟨second.enabled.trans first.enabled, fun entry => second.entries (first.entries entry)⟩

/-- A distance is added to the memo only if it is not there. -/
theorem Memo.Grows.distance (grows : memo.Grows memo') (r : Registry) (p a : TypeId) :
    memo.Grows (distance r p a memo').2 := by
  unfold Overload.distance
  split
  · exact grows
  · split
    · split
      · exact grows
      · next absent =>
        refine grows.trans ⟨rfl, fun {key found} entry => ?_⟩
        have other : key ≠ (p, a) := by
          rintro rfl
          rw [absent] at entry
          cases entry
        rw [List.lookup_cons, beq_eq_false_iff_ne.mpr other]
        exact entry
    · exact grows

theorem grows_choose {α : Type} (r : Registry) (signature : α → Signature) (name : String)
    (candidates : List α) (args : List Value) (absent noMatch : BridgeError) (memo : Memo) :
    memo.Grows (choose r signature name candidates args absent noMatch memo).2.2 :=
  choose_keeps (fun p a _ before => before.distance r p a) signature name candidates args absent
    noMatch (.refl memo)

end Overload

/-- From one world to the other only array types, arrays, distances, events and dispatchers that
belong to no object have been added. -/
structure World.Untouched (w w' : World) : Prop where
  registry : w.registry.GainsArrays w'.registry
  /-- The objects are as they were, with their fields or elements. -/
  objects : ∃ arrays, w'.heap.objects = w.heap.objects ++ arrays ∧
    ∀ o ∈ arrays, ∃ elements, o.contents = .elements elements ∧ o.handler = none
  statics : w'.heap.statics = w.heap.statics
  memo : w.memo.Grows w'.memo
  dispatchers : w.dispatchers <+: w'.dispatchers
  /-- All else is as it was: the handles, with their views, their super calls and the cache of
  instances, the class handles and their cache, functions, variables and the log. -/
  rest : w' = { w with
    registry := w'.registry
    heap := w'.heap
    memo := w'.memo
    dispatchers := w'.dispatchers
    events := w'.events }

namespace World.Untouched

theorem refl (settled : w.registry.Settled) : w.Untouched w where
  registry := .refl settled
  objects := ⟨[], by simp, by simp⟩
  statics := rfl
  memo := .refl w.memo
  dispatchers := List.prefix_refl _
  rest := rfl

theorem trans (first : w.Untouched w') (second : w'.Untouched w'') : w.Untouched w'' where
  registry := first.registry.trans second.registry
  objects := by
    obtain ⟨arrays, objects, isArray⟩ := first.objects
    obtain ⟨arrays', objects', isArray'⟩ := second.objects
    refine ⟨arrays ++ arrays', by rw [objects', objects, List.append_assoc], ?_⟩
    intro o member
    rcases List.mem_append.mp member with early | late
    · exact isArray o early
    · exact isArray' o late
  statics := second.statics.trans first.statics
  memo := first.memo.trans second.memo
  dispatchers := first.dispatchers.trans second.dispatchers
  rest := second.rest.trans (congrArg (fun x : World => { x with
    registry := w''.registry
    heap := w''.heap
    memo := w''.memo
    dispatchers := w''.dispatchers
    events := w''.events }) first.rest)

theorem withRegistry {r : Registry} (settled : w.registry.Settled)
    (gains : w.registry.GainsArrays r) : w.Untouched { w with registry := r } :=
  { refl settled with registry := gains, rest := rfl }

theorem withArray (settled : w.registry.Settled) (cls : TypeId) (elements : List Value) :
    w.Untouched { w with heap := (w.heap.alloc ⟨cls, .elements elements, none⟩).2 } :=
  { refl settled with
    objects := ⟨[⟨cls, .elements elements, none⟩], rfl, by simp⟩
    rest := rfl }

theorem withMemo {memo : Overload.Memo} (settled : w.registry.Settled)
    (grows : w.memo.Grows memo) (events : List Event) :
    w.Untouched { w with memo := memo, events := w.events ++ events } :=
  { refl settled with memo := grows, rest := rfl }

theorem withEvents (settled : w.registry.Settled) (events : List Event) :
    w.Untouched { w with events := events } :=
  { refl settled with rest := rfl }

theorem withDispatcher (settled : w.registry.Settled) (dispatcher : Dispatcher) :
    w.Untouched { w with dispatchers := w.dispatchers ++ [dispatcher] } :=
  { refl settled with dispatchers := List.prefix_append _ _, rest := rfl }

end World.Untouched

/-- If its registry is settled, the first world is left untouched. -/
def World.Leaves (w w' : World) : Prop := w.registry.Settled → w.Untouched w'

instance : IsPreorder World World.Leaves where
  refl _ settled := .refl settled
  trans _ _ _ first second settled :=
    (first settled).trans (second (first settled).registry.settled)

theorem Marshal.arraysStay_leaves : ArraysStay World.Leaves := by
  intro component elements w settled
  have gains := (Registry.GainsArrays.refl settled).arrayOf component
  unfold newArray
  simp only [bind, EStateM.bind, Task.onRegistry]
  cases result : Registry.arrayOf component w.registry with
  | error e r =>
    rw [result] at gains
    exact .withRegistry settled gains
  | ok array r =>
    rw [result] at gains
    have typed : w.Untouched { w with registry := r } := .withRegistry settled gains
    have read : ∀ w : World, (get : Task NativeError World) w = .ok w w := fun _ => rfl
    simp only [read, Task.ofExcept]
    cases r.checkElements component 0 elements with
    | error e => exact typed
    | ok _ => exact typed.trans (.withArray gains.settled array elements)

theorem Task.leaves_emit {ε : Type} (event : Event) :
    (emit event : Task ε Unit).Stays World.Leaves w :=
  .modify fun settled => .withEvents settled _

theorem Bridge.leaves_requireType (name : String) : (requireType name).Stays World.Leaves w :=
  stays_requireType fun settled => .withRegistry settled (.lookup settled name)

namespace Proxy

theorem leaves_chooseMethod (type : TypeId) (name : String) (args : List Value)
    (onInstance : Bool) : (chooseMethod type name args onInstance).Stays World.Leaves w := by
  refine .get (.set (fun settled => .withMemo settled ?_ _) (.result _))
  exact Overload.grows_choose _ _ _ _ _ _ _ _

theorem leaves_chooseConstructor (type : TypeId) (args : List Value) :
    (chooseConstructor type args).Stays World.Leaves w := by
  refine .get (.set (fun settled => .withMemo settled ?_ _) (.result _))
  exact Overload.grows_choose _ _ _ _ _ _ _ _

theorem leaves_prepare (proxy : Proxy) (site : CallSite) :
    (proxy.prepare site).Stays World.Leaves w := by
  have arrays := Marshal.arraysStay_leaves
  refine (arrays.unwrapAll site.args).bind fun args _ _ => .get ?_
  refine (leaves_chooseMethod _ site.method args site.onInstance).bind fun m _ _ => .get ?_
  refine (Task.leaves_emit _).bind fun _ _ _ => ?_
  exact (arrays.convertArguments args m.params m.variadic).bind fun _ _ _ => .pure _

end Proxy

namespace ClassHandle

/-- A constructor with all that it is going to be run with. -/
structure Arranged where
  ctor : Constructor
  args : List Value
  /-- The dispatcher of an instance that may carry overrides. -/
  dispatcher : Option DispatcherId

/-- What becomes of a new instance once its constructor can be entered. -/
def Arranged.finish (run : Runner) (a : Arranged) : Task BridgeError HandleId := do
  let w ← get
  let object ← Task.mapError (BridgeError.ofNative (w.registry.describeConstructor a.ctor))
    (Invoke.construct run a.ctor a.args (a.dispatcher.map .overrides))
  let id ← Task.wrapObject object
  match a.dispatcher with
  | none => return id
  | some dispatcher =>
    modify fun w => { w with
      dispatchers := w.dispatchers.modify dispatcher.index (fun d => { d with handle := some id }) }
    return id

def arrangePlain (handle : ClassHandle) (args : List ScriptValue) : Task BridgeError Arranged := do
  let (c, args) ← handle.prepare args
  return ⟨c, args, none⟩

/-- The dispatcher of the overrides is made before the arguments are looked at. -/
def arrangeBound (handle : ClassHandle) (overrides : Overrides) (args : List ScriptValue) :
    Task BridgeError Arranged := do
  Task.emit (constructingEvent handle.name overrides.length)
  let w ← get
  let dispatcher : DispatcherId := ⟨w.dispatchers.length⟩
  set { w with dispatchers := w.dispatchers ++ [Dispatcher.mk overrides none] }
  let (c, args) ← handle.prepare args
  return ⟨c, args, some dispatcher⟩

/-- What a new instance takes before its constructor is entered. -/
def arrange (handle : ClassHandle) (args : List ScriptValue) : Task BridgeError Arranged :=
  match handle.kind with
  | .plain => handle.arrangePlain (positionalArguments args)
  | .subclass => handle.arrangeBound [] (positionalArguments args)
  | .implementation =>
    match args with
    | [.dict entries] => do
      let overrides ← Task.ofExcept (readOverrides entries)
      handle.arrangeBound overrides []
    | _ => throw (.invalidArgument (.singleOverrideDictionary handle.name))

/-- The same for a new instance that is given overrides. -/
def arrangeWithOverrides (handle : ClassHandle) (overrides : ScriptValue)
    (args : List ScriptValue) : Task BridgeError Arranged := do
  if handle.kind = .plain then throw (.invalidArgument (.notGeneratedType handle.name))
  match overrides.dict? with
  | none => throw (.invalidArgument (.overridesNotDictionary overrides.typeName))
  | some entries =>
    let overrides ← Task.ofExcept (readOverrides entries)
    handle.arrangeBound overrides (positionalArguments args)

theorem constructBound_eq (run : Runner) (handle : ClassHandle) (overrides : Overrides)
    (args : List ScriptValue) :
    handle.constructBound run overrides args =
      handle.arrangeBound overrides args >>= Arranged.finish run := by
  simp only [constructBound, construct_eq, arrangeBound, Arranged.finish, bind_assoc, pure_bind,
    Option.map_some]

theorem newInstance_eq (run : Runner) (handle : ClassHandle) (args : List ScriptValue) :
    handle.newInstance run args = handle.arrange args >>= Arranged.finish run := by
  cases kind : handle.kind with
  | plain =>
    simp only [newInstance, arrange, kind, construct_eq, arrangePlain, Arranged.finish, bind_assoc,
      pure_bind, Option.map_none, bind_pure]
  | subclass =>
    simp only [newInstance, arrange, kind]
    exact constructBound_eq run handle _ _
  | implementation =>
    simp only [newInstance, arrange, kind]
    -- Only a single dictionary is not refused.
    cases args with
    | nil => rfl
    | cons first rest =>
      cases rest with
      | cons second rest => cases first <;> rfl
      | nil =>
        cases first with
        | dict entries => simp only [constructBound_eq, bind_assoc]
        | _ => rfl

theorem newInstanceWithOverrides_eq (run : Runner) (handle : ClassHandle)
    (overrides : ScriptValue) (args : List ScriptValue) :
    handle.newInstanceWithOverrides run overrides args =
      handle.arrangeWithOverrides overrides args >>= Arranged.finish run := by
  unfold newInstanceWithOverrides arrangeWithOverrides
  by_cases plain : handle.kind = .plain
  · simp only [if_pos plain]
    rfl
  · simp only [if_neg plain]
    cases overrides.dict? with
    | none => rfl
    | some entries => simp only [constructBound_eq, bind_assoc]

theorem leaves_prepare (handle : ClassHandle) (args : List ScriptValue) :
    (handle.prepare args).Stays World.Leaves w := by
  have arrays := Marshal.arraysStay_leaves
  refine (arrays.unwrapAll args).bind fun args _ _ => ?_
  refine (Proxy.leaves_chooseConstructor _ args).bind fun c _ _ => ?_
  exact (arrays.convertArguments args c.params c.variadic).bind fun _ _ _ => .pure _

theorem leaves_arrangeBound (handle : ClassHandle) (overrides : Overrides)
    (args : List ScriptValue) : (handle.arrangeBound overrides args).Stays World.Leaves w := by
  refine (Task.leaves_emit _).bind fun _ _ _ => .get (.set ?_ ?_)
  · exact fun settled => .withDispatcher settled _
  · exact (leaves_prepare handle args).bind fun _ _ _ => .pure _

theorem leaves_arrange (handle : ClassHandle) (args : List ScriptValue) :
    (handle.arrange args).Stays World.Leaves w := by
  unfold arrange
  split
  · exact (leaves_prepare handle _).bind fun _ _ _ => .pure _
  · exact leaves_arrangeBound handle _ _
  · split
    · exact .ofExcept fun overrides _ => leaves_arrangeBound handle overrides []
    · exact .throw _

theorem leaves_arrangeWithOverrides (handle : ClassHandle) (overrides : ScriptValue)
    (args : List ScriptValue) :
    (handle.arrangeWithOverrides overrides args).Stays World.Leaves w := by
  unfold arrangeWithOverrides
  refine .guard fun _ => ?_
  split
  · exact .throw _
  · exact .ofExcept fun overrides _ => leaves_arrangeBound handle overrides _

end ClassHandle

/-- A place that holds a value: a field or an element of the object at an address, or a static
field. -/
inductive Slot where
  | field (address : Nat) (name : String)
  | element (address : Nat) (index : Nat)
  | static (declaring : TypeId) (name : String)
  deriving DecidableEq

namespace Heap

variable {heap heap' : Heap} {slot : Slot} {v : Value}

def contents? (heap : Heap) (address : Nat) : Option Contents :=
  (heap.objects[address]?).map Object.contents

def read? (heap : Heap) : Slot → Option Value
  | .field address name =>
    match heap.contents? address with
    | some (.fields fields) => fields.lookup name
    | _ => none
  | .element address index =>
    match heap.contents? address with
    | some (.elements elements) => elements[index]?
    | _ => none
  | .static declaring name => heap.static? declaring name

/-- The second heap has the value in the slot and is otherwise the same. -/
structure Writes (heap : Heap) (slot : Slot) (v : Value) (heap' : Heap) : Prop where
  written : heap'.read? slot = some v
  others : ∀ other, other ≠ slot → heap'.read? other = heap.read? other
  kept : heap'.objects.map (fun o => (o.cls, o.handler)) =
    heap.objects.map (fun o => (o.cls, o.handler))

theorem writes_setStatic (heap : Heap) (declaring : TypeId) (name : String) (v : Value) :
    heap.Writes (.static declaring name) v (heap.setStatic declaring name v) where
  written := by simp [read?, setStatic, static?]
  others := by
    intro other different
    cases other with
    | field address name => rfl
    | element address index => rfl
    | static declaring' name' =>
      have key : (declaring', name') ≠ (declaring, name) := by
        intro same
        cases same
        exact different rfl
      simp only [read?, setStatic, static?, List.lookup_cons, beq_eq_false_iff_ne.mpr key]
      rw [lookup_filter_ne, beq_eq_false_iff_ne.mpr key]
      rfl
  kept := rfl

theorem lookup_replaceField {fields : List (String × Value)} {name : String}
    (there : (fields.lookup name).isSome) (key : String) :
    (replaceField name v fields).lookup key = if key = name then some v else fields.lookup key := by
  induction fields with
  | nil => cases there
  | cons entry rest ih =>
    obtain ⟨other, old⟩ := entry
    unfold replaceField
    by_cases same : name = other
    · subst same
      by_cases hit : key = name
      · simp [hit]
      · simp [hit, List.lookup_cons, beq_eq_false_iff_ne.mpr hit]
    · rw [List.lookup_cons, beq_eq_false_iff_ne.mpr same] at there
      rw [beq_eq_false_iff_ne.mpr same]
      simp only [Bool.false_eq_true, if_false, List.lookup_cons, ih there]
      by_cases hit : key = other
      · subst hit
        simp [Ne.symm same]
      · simp [beq_eq_false_iff_ne.mpr hit]

theorem contents?_write (heap : Heap) (ref : ObjectRef) (contents : Contents) (address : Nat) :
    (heap.write ref contents).contents? address =
      if address = ref.address then (heap.contents? address).map (fun _ => contents)
      else heap.contents? address := by
  simp only [contents?, write, List.getElem?_modify, eq_comm (a := ref.address)]
  split <;> simp [Function.comp_def]

theorem kept_write (heap : Heap) (ref : ObjectRef) (contents : Contents) :
    (heap.write ref contents).objects.map (fun o => (o.cls, o.handler)) =
      heap.objects.map (fun o => (o.cls, o.handler)) := by
  apply List.ext_getElem?
  intro address
  simp only [write, List.getElem?_map, List.getElem?_modify]
  split <;> simp [Function.comp_def]

/-- A field is written only if the object has it. -/
theorem writes_setField {ref : ObjectRef} {name : String}
    (success : heap.setField? ref name v = some heap') :
    (heap.read? (.field ref.address name)).isSome ∧
      heap.Writes (.field ref.address name) v heap' := by
  unfold setField? at success
  split at success
  · next fields contents =>
    have before : heap.contents? ref.address = some (.fields fields) := contents
    split at success
    · next there =>
      cases success
      have after := contents?_write heap ref (.fields (replaceField name v fields))
      have own := (after ref.address).trans (if_pos rfl)
      rw [before, Option.map_some] at own
      refine ⟨by simpa [read?, before] using there, ?_, ?_, kept_write heap ref _⟩
      · simp [read?, own, lookup_replaceField there]
      · intro other different
        cases other with
        | field address key =>
          by_cases same : address = ref.address
          · subst same
            have key_ne : key ≠ name := fun equal => different (equal ▸ rfl)
            simp [read?, own, before, lookup_replaceField there, key_ne]
          · simp only [read?, after, if_neg same]
        | element address index =>
          by_cases same : address = ref.address
          · subst same
            simp [read?, own, before]
          · simp only [read?, after, if_neg same]
        | static declaring key => rfl
    · cases success
  · cases success

end Heap

/-- The slot that a field has, of the receiver unless it is static. -/
def Field.slot? (f : Field) (receiver : Option ObjectRef) : Option Slot :=
  if f.isStatic then some (.static f.declaring f.name)
  else receiver.map fun ref => .field ref.address f.name

/-- All that a write to a field can do. -/
inductive Invoke.WriteOutcome (w : World) (f : Field) (receiver : Option ObjectRef) (v : Value) :
    Task.Outcome NativeError Unit → Prop where
  | refused {fault : NativeError} : WriteOutcome w f receiver v (.error fault w)
  | written {slot : Slot} {heap : Heap} (place : f.slot? receiver = some slot)
      (there : f.isStatic = true ∨ (w.heap.read? slot).isSome)
      (writes : w.heap.Writes slot v heap) :
      WriteOutcome w f receiver v (.ok () { w with heap := heap })

theorem Invoke.setField_outcome (w : World) (f : Field) (receiver : Option ObjectRef) (v : Value) :
    WriteOutcome w f receiver v (setField f receiver v w) := by
  unfold setField
  rw [Task.get_bind]
  cases f.modifiers.isFinal with
  | true => exact .refused
  | false =>
    cases accepted : w.registry.accepts f.type v with
    | false => exact .refused
    | true =>
      cases isStatic : f.isStatic with
      | true =>
        cases w.registry.require f.declaring with
        | error fault => exact .refused
        | ok type =>
          exact .written (by simp [Field.slot?, isStatic]) (Or.inl isStatic)
            (Heap.writes_setStatic w.heap f.declaring f.name v)
      | false =>
        cases receiver with
        | none => exact .refused
        | some ref =>
          cases success : w.heap.setField? ref f.name v with
          | none =>
            simp only [success]
            exact .refused
          | some heap =>
            simp only [success]
            obtain ⟨there, writes⟩ := Heap.writes_setField success
            exact .written (by simp [Field.slot?, isStatic]) (Or.inr there) writes

namespace Proxy

/-- What a write takes before the field is written: the field, its receiver and the value. -/
def prepareWrite (proxy : Proxy) (name : String) (value : ScriptValue) :
    Task BridgeError (Field × Option ObjectRef × Value) := do
  let w ← get
  let f ← Task.ofExcept (accessibleField w.registry (proxy.memberType w) name)
  let unwrapped ← Marshal.unwrap value
  let converted ← Marshal.convert unwrapped f.type
  return (f, proxy.receiver? w, converted)

theorem setField_eq (proxy : Proxy) (name : String) (value : ScriptValue) :
    proxy.setField name value = (do
      let (f, receiver, v) ← proxy.prepareWrite name value
      Task.mapError (BridgeError.ofNative f.name) (Invoke.setField f receiver v)) := by
  simp only [setField, prepareWrite, bind_assoc, pure_bind]

theorem leaves_prepareWrite (proxy : Proxy) (name : String) (value : ScriptValue) :
    (proxy.prepareWrite name value).Stays World.Leaves w := by
  have arrays := Marshal.arraysStay_leaves
  refine .get (.ofExcept fun f _ => ?_)
  refine (arrays.unwrap value).bind fun unwrapped _ _ => ?_
  exact (arrays.convert unwrapped f.type).bind fun _ _ _ => .pure _

/-- The field of the name is the one that script code can reach, and the value is the given one,
unwrapped and converted to the type of the field. -/
theorem prepareWrite_ok {proxy : Proxy} {name : String} {value : ScriptValue} {f : Field}
    {receiver : Option ObjectRef} {v : Value}
    (prepared : proxy.prepareWrite name value w = .ok (f, receiver, v) w') :
    accessibleField w.registry (proxy.memberType w) name = .ok f ∧ receiver = proxy.receiver? w ∧
      ∃ unwrapped w₁, Marshal.unwrap value w = .ok unwrapped w₁ ∧
        Marshal.convert unwrapped f.type w₁ = .ok v w' := by
  unfold prepareWrite at prepared
  rw [Task.get_bind] at prepared
  obtain ⟨g, _, accessed, rest⟩ := Task.of_bind_ok prepared
  obtain ⟨unwrapped, w₁, unwrap, rest⟩ := Task.of_bind_ok rest
  obtain ⟨_, _, converted, rest⟩ := Task.of_bind_ok rest
  cases rest
  cases access : accessibleField w.registry (proxy.memberType w) name with
  | error e =>
    rw [access] at accessed
    cases accessed
  | ok g =>
    rw [access] at accessed
    cases accessed
    exact ⟨rfl, rfl, unwrapped, w₁, unwrap, converted⟩

/-- A write to the named field has changed one slot, and before that arrays may have been made. The
slot has the given value, unwrapped and converted to the type of the field. -/
structure WritesOnce (proxy : Proxy) (name : String) (value : ScriptValue) (w between w' : World) :
    Prop where
  arranged : w.Untouched between
  wrote : ∃ f unwrapped w₁ v slot, accessibleField w.registry (proxy.memberType w) name = .ok f ∧
    Marshal.unwrap value w = .ok unwrapped w₁ ∧
    Marshal.convert unwrapped f.type w₁ = .ok v between ∧
    f.slot? (proxy.receiver? w) = some slot ∧ between.heap.Writes slot v w'.heap ∧
    (f.isStatic = true ∨ (between.heap.read? slot).isSome)
  rest : w' = { between with heap := w'.heap }

theorem setField_untouched (settled : w.registry.Settled) {proxy : Proxy} {name : String}
    {value : ScriptValue} (failed : proxy.setField name value w = .error e w') :
    w.Untouched w' := by
  rw [setField_eq] at failed
  have stays := proxy.leaves_prepareWrite (w := w) name value
  rcases Task.of_bind_error failed with early | ⟨⟨f, receiver, v⟩, w₁, prepared, failed⟩
  · exact stays.error early settled
  · have outcome := Invoke.setField_outcome w₁ f receiver v
    simp only [Task.mapError] at failed
    generalize Invoke.setField f receiver v w₁ = result at outcome failed
    cases outcome with
    | refused =>
      cases failed
      exact stays.ok prepared settled
    | written place there writes => cases failed

theorem setField_writesOnce (settled : w.registry.Settled) {proxy : Proxy} {name : String}
    {value : ScriptValue} {result : Unit}
    (success : proxy.setField name value w = .ok result w') :
    ∃ between, proxy.WritesOnce name value w between w' := by
  rw [setField_eq] at success
  obtain ⟨⟨f, receiver, v⟩, w₁, prepared, written⟩ := Task.of_bind_ok success
  have arranged := (proxy.leaves_prepareWrite name value).ok prepared settled
  obtain ⟨access, rfl, unwrapped, w₂, unwrap, convert⟩ := prepareWrite_ok prepared
  have outcome := Invoke.setField_outcome w₁ f (proxy.receiver? w) v
  simp only [Task.mapError] at written
  generalize Invoke.setField f (proxy.receiver? w) v w₁ = result at outcome written
  cases outcome with
  | refused => cases written
  | written place there writes =>
    cases written
    exact ⟨w₁, arranged, ⟨f, unwrapped, w₂, v, _, access, unwrap, convert, place, writes, there⟩,
      rfl⟩

end Proxy

namespace HandleId

variable {id : HandleId} {value : ScriptValue}

/-- All that a change of overrides can do. -/
inductive OverrideOutcome (w : World) (id : HandleId) (value : ScriptValue) :
    Task.Outcome BridgeError Unit → Prop where
  | refused {e : BridgeError} : OverrideOutcome w id value (.error e w)
  | replaced {h : Handle} {dispatcher : DispatcherId} {entries : List (String × ScriptValue)}
      {overrides : Overrides} (found : w.handle? id = some h)
      (bound : h.dispatcher = some dispatcher) (dict : value.dict? = some entries)
      (read : readOverrides entries = .ok overrides) :
      OverrideOutcome w id value (.ok () { w with
        dispatchers :=
          w.dispatchers.modify dispatcher.index (fun d => { d with overrides := overrides }) })

theorem setOverrides_outcome (w : World) (id : HandleId) (value : ScriptValue) :
    OverrideOutcome w id value (id.setOverrides value w) := by
  unfold setOverrides
  rw [Task.get_bind]
  cases bound : (w.handle? id).bind Handle.dispatcher with
  | none => exact .refused
  | some dispatcher =>
    obtain ⟨h, found, bound⟩ := Option.bind_eq_some_iff.mp bound
    cases dict : value.dict? with
    | none => exact .refused
    | some entries =>
      cases read : readOverrides entries with
      | error e =>
        simp only [read]
        exact .refused
      | ok overrides =>
        simp only [read]
        exact .replaced found bound dict read

/-- The handle's own dispatcher has the new overrides, and nothing else has changed. -/
def Rebinds (id : HandleId) (value : ScriptValue) (w w' : World) : Prop :=
  ∃ h own entries overrides, w.handle? id = some h ∧ h.dispatcher = some own ∧
    value.dict? = some entries ∧ readOverrides entries = .ok overrides ∧
    (∀ d, w'.dispatcher? d =
      if d = own then (w.dispatcher? d).map (fun old => { old with overrides := overrides })
      else w.dispatcher? d) ∧
    w' = { w with dispatchers := w'.dispatchers }

theorem setOverrides_rebinds {result : Unit} (success : id.setOverrides value w = .ok result w') :
    id.Rebinds value w w' := by
  have outcome := setOverrides_outcome w id value
  rw [success] at outcome
  cases outcome with
  | @replaced h own entries overrides found bound dict read =>
    refine ⟨h, own, entries, overrides, found, bound, dict, read, ?_, rfl⟩
    intro d
    have index : own.index = d.index ↔ d = own := by
      cases d
      cases own
      simp [eq_comm]
    simp only [World.dispatcher?, List.getElem?_modify, index]
    split <;> simp

theorem setOverrides_unchanged (failed : id.setOverrides value w = .error e w') : w' = w := by
  have outcome := setOverrides_outcome w id value
  rw [failed] at outcome
  cases outcome
  rfl

end HandleId

theorem Bridge.cast_untouched (settled : w.registry.Settled) {name : String} {value : ScriptValue}
    (failed : Bridge.cast name value w = .error e w') : w.Untouched w' := by
  unfold Bridge.cast at failed
  rcases Task.of_bind_error failed with early | ⟨_, w₁, checked, failed⟩
  · exact (stays_checkRegistered (R := World.Leaves)).error early settled
  · cases eq_of_checkRegistered checked
    cases present : value.instance? with
    | none =>
      simp only [present] at failed
      cases failed
      exact .refl settled
    | some id =>
      simp only [present] at failed
      rcases Task.of_bind_error failed with early | ⟨type, w₂, required, failed⟩
      · exact (leaves_requireType name).error early settled
      · cases HandleId.cast_error failed
        exact (leaves_requireType name).ok required settled

/-- What a failure before anything is entered leaves, and what a write or new overrides change. -/
structure World.FailsEarly (w : World) : Prop where
  cast : ∀ {name value e w'}, Bridge.cast name value w = .error e w' → w.Untouched w'
  castHandle : ∀ {id type e w'}, HandleId.cast id type w = .error e w' → w' = w
  setOverrides : ∀ {id value e w'}, HandleId.setOverrides id value w = .error e w' → w' = w
  setField : ∀ {proxy name value e w'}, Proxy.setField proxy name value w = .error e w' →
    w.Untouched w'
  /-- A call that cannot be prepared fails so, whatever runs methods. -/
  call : ∀ {proxy site e w'}, Proxy.prepare proxy site w = .error e w' →
    w.Untouched w' ∧ ∀ run, proxy.call run site w = .error e w'
  newInstance : ∀ {handle args e w'}, ClassHandle.arrange handle args w = .error e w' →
    w.Untouched w' ∧ ∀ run, handle.newInstance run args w = .error e w'
  newInstanceWithOverrides : ∀ {handle overrides args e w'},
    ClassHandle.arrangeWithOverrides handle overrides args w = .error e w' →
      w.Untouched w' ∧ ∀ run, handle.newInstanceWithOverrides run overrides args w = .error e w'
  write : ∀ {proxy name value w'}, Proxy.setField proxy name value w = .ok () w' →
    ∃ between, proxy.WritesOnce name value w between w'
  rebind : ∀ {id value w'}, HandleId.setOverrides id value w = .ok () w' → id.Rebinds value w w'

/-- At every moment, what fails before a method or constructor is entered has changed nothing but
for arrays and distances; a write changes one slot, and new overrides one dispatcher. -/
theorem early_failures_change_nothing (moment : Moment w) : w.FailsEarly := by
  have settled := moment.sound.registry
  constructor
  case cast => exact Bridge.cast_untouched settled
  case castHandle => exact HandleId.cast_error
  case setOverrides => exact HandleId.setOverrides_unchanged
  case setField => exact Proxy.setField_untouched settled
  case call =>
    intro proxy site e w' refused
    exact ⟨(proxy.leaves_prepare site).error refused settled,
      fun run => Proxy.call_of_refused refused⟩
  case newInstance =>
    intro handle args e w' refused
    refine ⟨(handle.leaves_arrange args).error refused settled, fun run => ?_⟩
    rw [ClassHandle.newInstance_eq, Task.bind_error refused]
  case newInstanceWithOverrides =>
    intro handle overrides args e w' refused
    refine ⟨(handle.leaves_arrangeWithOverrides overrides args).error refused settled,
      fun run => ?_⟩
    rw [ClassHandle.newInstanceWithOverrides_eq, Task.bind_error refused]
  case write => exact Proxy.setField_writesOnce settled
  case rebind => exact HandleId.setOverrides_rebinds

/-- A call of the choir with an array, of a method that it has not. -/
def missedCall : Task BridgeError Proxy.Prepared :=
  (Proxy.instance ⟨0⟩).prepare ⟨"sing", [.array [.int 1]], true⟩

/-- A write of an array to the field of the leaf, which holds any object. -/
def arrayWrite : Task BridgeError Unit :=
  (Proxy.instance ⟨0⟩).setField "x" (.array [.int 1])

theorem moment_twoSlotWorld : Moment (twoSlotWorld .string .object) :=
  (handleWritten_twoSlotWorld ⟨_, rfl, List.mem_singleton_self _⟩ ⟨_, rfl, rfl⟩).moment

/-- The array is made before the method is not found; a dictionary is refused when it is half read;
and a dictionary of one function replaces both overrides of the choir. The write puts a new array in
the slot of `x`, which was empty. -/
theorem early_failures_choirWorld :
    (missedCall choirWorld =
        .error (.notFound (.method "sing" "app.Choir")) (stateAfter (missedCall choirWorld)) ∧
      choirWorld.Untouched (stateAfter (missedCall choirWorld)) ∧
      (stateAfter (missedCall choirWorld)).registry.named? "core.Object[]" = some ⟨23⟩ ∧
      (stateAfter (missedCall choirWorld)).heap.elements ⟨1, ⟨23⟩⟩ = [.int 1]) ∧
    (∃ e, HandleId.setOverrides ⟨0⟩ (.dict [("speak", .function ⟨0⟩), ("greet", .null)])
      choirWorld = .error e choirWorld) ∧
    (∃ w', HandleId.setOverrides ⟨0⟩ (.dict [("greet", .function ⟨0⟩)]) choirWorld = .ok () w' ∧
      HandleId.Rebinds ⟨0⟩ (.dict [("greet", .function ⟨0⟩)]) choirWorld w' ∧
      (w'.dispatcher? ⟨0⟩).map Dispatcher.overrides = some [("greet", ⟨0⟩)]) ∧
    ∃ between w', arrayWrite (twoSlotWorld .string .object) = .ok () w' ∧
      (Proxy.instance ⟨0⟩).WritesOnce "x" (.array [.int 1]) (twoSlotWorld .string .object)
        between w' ∧
      (twoSlotWorld .string .object).heap.read? (.field 0 "x") = some .null ∧
      (w'.heap.read? (.field 0 "x")).bind Value.object? = some ⟨1, ⟨22⟩⟩ ∧
      (w'.heap.elements ⟨1, ⟨22⟩⟩).map Value.integer? = [some 1] := by
  have early := early_failures_change_nothing (moment_of_reachable reachable_choirWorld)
  have missed : missedCall choirWorld =
      .error (.notFound (.method "sing" "app.Choir")) (stateAfter (missedCall choirWorld)) := rfl
  refine ⟨⟨missed, (early.call missed).1, ?_, rfl⟩, ⟨_, rfl⟩, ⟨_, rfl, early.rebind rfl, rfl⟩, ?_⟩
  · decide +kernel
  · obtain ⟨_, w', written⟩ : Task.Succeeds arrayWrite (twoSlotWorld .string .object) := by
      decide +kernel
    have after : stateAfter (arrayWrite (twoSlotWorld .string .object)) = w' := by
      rw [written]
      rfl
    obtain ⟨between, once⟩ := (early_failures_change_nothing moment_twoSlotWorld).write written
    refine ⟨between, w', written, once, rfl, ?_⟩
    rw [← after]
    decide +kernel

end Interop
