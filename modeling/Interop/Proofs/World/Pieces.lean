import Interop.Proofs.World.Frames
import Interop.Proofs.World.Moments

/-!
What enters no body. Most tasks of the bridge and most moves of a host run neither a native body nor
a script function. They are made of few pieces: a type is registered, an object is made, a handle is
given, shown differently or given up, and the like. A relation of worlds that allows the pieces
allows all these tasks and moves.
-/
namespace Interop

open Interop.Task (Stays)

/-- The dispatcher behind a handler. -/
def Handler.dispatcher? : Handler → Option DispatcherId
  | overrides dispatcher => some dispatcher
  | logging => none

variable {R : World → World → Prop} {w : World}

/-- The relation allows each piece. -/
structure Pieces (R : World → World → Prop) : Prop where
  -- Neither types, objects, handles nor dispatchers.
  aside : ∀ {w w' : World}, w'.registry = w.registry → w'.heap = w.heap →
    w'.handles = w.handles → w'.dispatchers = w.dispatchers → R w w'
  -- Types.
  lookup : ∀ (w : World) name, R w { w with registry := (Registry.lookup name w.registry).2 }
  arrayOf : ∀ (w : World) component,
    R w { w with registry := stateAfter (Registry.arrayOf component w.registry) }
  defineWith : ∀ (w : World) resolver,
    R w { w with registry := stateAfter (w.registry.defineWith resolver).1 }
  generateSubclass : ∀ (w : World) base,
    R w { w with registry := stateAfter (w.registry.generateSubclass base).1 }
  generateImplementation : ∀ (w : World) interface,
    R w { w with registry := stateAfter (w.registry.generateImplementation interface).1 }
  -- Objects.
  newObject : ∀ (w : World) cls {handler : Option Handler},
    handler.bind Handler.dispatcher? = none →
    R w { w with
      heap := (w.heap.alloc ⟨cls, .fields (w.registry.instanceDefaults cls), handler⟩).2 }
  newElements : ∀ (w : World) cls elements,
    R w { w with heap := (w.heap.alloc ⟨cls, .elements elements, none⟩).2 }
  setElement : ∀ {w : World} {ref index value heap},
    w.heap.setElement? ref index value = some heap → R w { w with heap := heap }
  setField : ∀ (proxy : Proxy) name value {w}, (proxy.setField name value).Stays R w
  -- Handles.
  wrap : ∀ (w : World) (object : ObjectRef), R w { w with handles :=
    (w.handles.wrap object (w.registry.visibleClass object.cls) (w.heap.dispatcher? object)).2 }
  superView : ∀ (w : World) id, R w { w with handles := (w.handles.superView id).2 }
  retain : ∀ (w : World) id, R w { w with handles := w.handles.retain id }
  drop : ∀ (w : World) id, R w { w with handles := w.handles.drop id }
  forget : ∀ (w : World) id, R w { w with handles := w.handles.forget id }
  purge : ∀ (w : World), R w { w with handles := w.handles.purge.2 }
  setView : ∀ {w : World} {id h view}, w.handle? id = some h →
    w.registry.isAssignable h.target.cls view = true →
    R w { w with handles := w.handles.setView id view }
  -- Dispatchers.
  setOverrides : ∀ (w : World) index overrides, R w { w with
    dispatchers := w.dispatchers.modify index (fun d => { d with overrides := overrides }) }

namespace Pieces

/-- So does a wider relation. -/
theorem mono {S : World → World → Prop} (weaker : ∀ {w w' : World}, S w w' → R w w')
    (pieces : Pieces S) : Pieces R where
  aside registry heap handles dispatchers :=
    weaker (pieces.aside registry heap handles dispatchers)
  lookup w name := weaker (pieces.lookup w name)
  arrayOf w component := weaker (pieces.arrayOf w component)
  defineWith w resolver := weaker (pieces.defineWith w resolver)
  generateSubclass w base := weaker (pieces.generateSubclass w base)
  generateImplementation w interface := weaker (pieces.generateImplementation w interface)
  newObject w cls _ plain := weaker (pieces.newObject w cls plain)
  newElements w cls elements := weaker (pieces.newElements w cls elements)
  setElement written := weaker (pieces.setElement written)
  setField proxy name value := weaker (pieces.setField proxy name value)
  wrap w object := weaker (pieces.wrap w object)
  superView w id := weaker (pieces.superView w id)
  retain w id := weaker (pieces.retain w id)
  drop w id := weaker (pieces.drop w id)
  forget w id := weaker (pieces.forget w id)
  purge w := weaker (pieces.purge w)
  setView found assignable := weaker (pieces.setView found assignable)
  setOverrides w index overrides := weaker (pieces.setOverrides w index overrides)

variable (pieces : Pieces R)
include pieces

theorem stays_emit {ε : Type} (event : Event) : (Task.emit event : Task ε Unit).Stays R w :=
  .modify (pieces.aside rfl rfl rfl rfl)

theorem stays_addClass {ε : Type} (handle : ClassHandle) :
    (Task.addClass handle : Task ε ClassId).Stays R w :=
  pieces.aside rfl rfl rfl rfl

theorem stays_lookupType {ε : Type} (name : String) :
    (Task.lookupType name : Task ε (Option TypeId)).Stays R w :=
  pieces.lookup w name

theorem stays_arrayOf (component : TypeId) :
    (Task.onRegistry (Registry.arrayOf component)).Stays R w :=
  Task.stays_onRegistry (pieces.arrayOf w component)

variable [IsPreorder World R]

/-- A piece, and something aside. -/
theorem then_aside {w' w'' : World} (first : R w w') (registry : w''.registry = w'.registry)
    (heap : w''.heap = w'.heap) (handles : w''.handles = w'.handles)
    (dispatchers : w''.dispatchers = w'.dispatchers) : R w w'' :=
  trans_of R first (pieces.aside registry heap handles dispatchers)

/-- A registry operation that reports events. -/
theorem stays_onRegistryNoted {α : Type}
    {operation : Registry → EStateM.Result NativeError Registry α × List Event}
    (updated : R w { w with registry := stateAfter (operation w.registry).1 }) :
    (Task.onRegistryNoted operation).Stays R w := by
  unfold Stays Task.onRegistryNoted
  generalize operation w.registry = outcome at updated
  obtain ⟨result, events⟩ := outcome
  have noted : R w { w with registry := stateAfter result, events := w.events ++ events } :=
    pieces.then_aside updated rfl rfl rfl rfl
  cases result <;> exact noted

theorem stays_define (draft : TypeDraft) :
    (Task.onRegistryNoted (Registry.define draft)).Stays R w := by
  apply pieces.stays_onRegistryNoted
  rw [Registry.define_eq]
  split
  · exact refl_of R w
  · exact pieces.defineWith w _

theorem arrays : Marshal.ArraysStay R :=
  Marshal.arraysStay_of (fun component _ => pieces.stays_arrayOf component) pieces.newElements

theorem stays_storeElement (array : ObjectRef) (index : Nat) (value : Value) :
    (Invoke.storeElement array index value).Stays R w := by
  refine .get ?_
  split
  · exact .throw _
  · refine .guard fun _ => ?_
    split
    · next written => exact .store (pieces.setElement written)
    · exact .throw _

theorem wraps : Marshal.WrapsStay R :=
  fun object w => pieces.then_aside (pieces.wrap w object) rfl rfl rfl rfl

theorem stays_superView (id : HandleId) :
    (Task.superView id : Task BridgeError HandleId).Stays R w :=
  pieces.then_aside (pieces.superView w id) rfl rfl rfl rfl

theorem retainAll (ids : List HandleId) (w : World) : R w (w.retainAll ids) := by
  induction ids generalizing w with
  | nil => exact refl_of R w
  | cons id rest ih => exact trans_of R (pieces.retain w id) (ih _)

theorem dropAll (ids : List HandleId) (w : World) : R w (w.dropAll ids) := by
  induction ids generalizing w with
  | nil => exact refl_of R w
  | cons id rest ih => exact trans_of R (pieces.drop w id) (ih _)

theorem hold (w : World) (value : ScriptValue) : R w (w.hold value) :=
  pieces.then_aside (pieces.retainAll value.handles w) rfl rfl rfl rfl

theorem endScope (w : World) (outer result : List HandleId) : R w (w.endScope outer result) :=
  have dropped := trans_of R (pieces.retainAll result w) (pieces.dropAll w.held _)
  pieces.then_aside dropped rfl rfl rfl rfl

theorem setVariable (w : World) (name : String) (value : ScriptValue) :
    R w (w.setVariable name value) :=
  have replaced := trans_of R (pieces.retainAll value.handles w)
    (pieces.dropAll (((w.scriptVariables.lookup name).map ScriptValue.handles).getD []) _)
  pieces.then_aside replaced rfl rfl rfl rfl

theorem removeVariable (w : World) (name : String) : R w (w.removeVariable name) :=
  have dropped :=
    pieces.dropAll (((w.scriptVariables.lookup name).map ScriptValue.handles).getD []) w
  pieces.then_aside dropped rfl rfl rfl rfl

theorem stays_prepareCall (proxy : Proxy) (site : CallSite) : (proxy.prepare site).Stays R w := by
  refine (pieces.arrays.unwrapAll site.args).bind fun args w₁ _ => .get ?_
  refine Stays.bind (.get (.set (pieces.aside rfl rfl rfl rfl) (.result _))) fun m w₂ _ => .get ?_
  refine (pieces.stays_emit _).bind fun _ _ _ => ?_
  exact (pieces.arrays.convertArguments args m.params m.variadic).bind fun _ _ _ => .pure _

theorem stays_prepareNew (handle : ClassHandle) (args : List ScriptValue) :
    (handle.prepare args).Stays R w := by
  refine (pieces.arrays.unwrapAll args).bind fun args w₁ _ => ?_
  refine Stays.bind (.get (.set (pieces.aside rfl rfl rfl rfl) (.result _))) fun c w₂ _ => ?_
  exact (pieces.arrays.convertArguments args c.params c.variadic).bind fun _ _ _ => .pure _

theorem stays_castTo (id : HandleId) (type : TypeId) : (id.cast type).Stays R w := by
  refine .get ?_
  split
  · exact .pure _
  · next found =>
    refine .guard fun assignable => .set (pieces.setView found (by simpa using assignable)) ?_
    exact (pieces.stays_emit _).bind fun _ _ _ => .pure _

theorem stays_isInstanceOf (id : HandleId) (name : String) :
    (id.isInstanceOf name : Task BridgeError Bool).Stays R w := by
  refine .get ?_
  split
  · exact .pure _
  · split
    · exact .pure _
    · refine (pieces.stays_lookupType name).bind fun found _ _ => ?_
      split
      · exact .get (.pure _)
      · exact (pieces.stays_emit _).bind fun _ _ _ => .pure _

theorem stays_setOverrides (id : HandleId) (overrides : ScriptValue) :
    (id.setOverrides overrides).Stays R w := by
  refine .get ?_
  split
  · exact .throw _
  · split
    · exact .throw _
    · exact .ofExcept fun overrides _ => .modify (pieces.setOverrides w _ overrides)

theorem stays_requireType (name : String) : (Bridge.requireType name).Stays R w :=
  Bridge.stays_requireType (pieces.stays_lookupType name)

theorem stays_getClass (name : String) : (Bridge.getClass name).Stays R w := by
  refine Bridge.stays_checkRegistered.bind fun _ w₁ _ => .get ?_
  split
  · refine .set (pieces.aside rfl rfl rfl rfl) ?_
    exact (pieces.stays_emit _).bind fun _ _ _ => .pure _
  · refine (pieces.stays_requireType name).bind fun type w₂ _ => .get ?_
    refine (pieces.stays_addClass _).bind fun id _ _ => ?_
    refine (pieces.stays_emit _).bind fun _ w₃ _ => ?_
    refine .get (.set (pieces.aside rfl rfl rfl rfl) ?_)
    split
    · exact (pieces.stays_emit _).bind fun _ _ _ => .pure _
    · exact .pure _

theorem stays_extend (name : String) : (Bridge.extend name).Stays R w := by
  refine Bridge.stays_checkRegistered.bind fun _ _ _ => ?_
  refine (pieces.stays_requireType name).bind fun type w₁ _ => .get (.guard fun _ => ?_)
  have generated := pieces.stays_onRegistryNoted (pieces.generateSubclass w₁ type)
  exact (generated.mapError _).bind fun _ _ _ => pieces.stays_addClass _

theorem stays_implement (name : String) : (Bridge.implement name).Stays R w := by
  refine Bridge.stays_checkRegistered.bind fun _ _ _ => ?_
  refine (pieces.stays_requireType name).bind fun type w₁ _ => .get (.guard fun _ => ?_)
  have generated := pieces.stays_onRegistryNoted (pieces.generateImplementation w₁ type)
  exact (generated.mapError _).bind fun _ _ _ => pieces.stays_addClass _

theorem stays_cast (name : String) (value : ScriptValue) : (Bridge.cast name value).Stays R w := by
  refine Bridge.stays_checkRegistered.bind fun _ _ _ => ?_
  split
  · exact .throw _
  · exact (pieces.stays_requireType name).bind fun type _ _ => pieces.stays_castTo _ type

theorem stays_wrap (value : Value) : (Bridge.wrap value).Stays R w :=
  Bridge.stays_checkRegistered.bind fun _ _ _ => pieces.wraps.toScript value

end Pieces

/-- An action that enters no body. -/
def Action.Plain : Action → Prop
  | construct _ _ _ => False
  | invoke _ _ _ => False
  | newInstance _ _ => False
  | newInstanceWithOverrides _ _ _ => False
  | call _ _ => False
  | _ => True

/-- A move that enters no body and is no part of a call whose method is about to be entered. -/
def Move.Plain : Move → Prop
  | act action => action.Plain
  | native _ _ _ => False
  | script _ _ _ => False
  | takeSuperCall _ _ => False
  | invokeForced _ _ _ => False
  | invokeDirect _ _ _ => False
  | invokeSuper _ _ _ => False
  | _ => True

/-- A move by which the host has a hand in objects and dispatchers: a field is written past all
handles, and dispatchers and objects are made apart. -/
def Move.Raw : Move → Prop
  | addDispatcher _ => True
  | allocate _ _ _ => True
  | setField _ _ _ => True
  | _ => False

theorem Pieces.of_plainAction [IsPreorder World R] (pieces : Pieces R) {action : Action}
    (plain : action.Plain) : R w (action.apply w) := by
  cases action with
  | define draft => exact pieces.stays_define draft
  | defineWith resolver => exact pieces.stays_onRegistryNoted (pieces.defineWith w resolver)
  | lookup name => exact pieces.lookup w name
  | arrayOf component => exact pieces.stays_arrayOf component
  | newArray component elements => exact pieces.arrays component elements w
  | setNativeVariable name value => exact pieces.aside rfl rfl rfl rfl
  | turnGate isOpen => exact pieces.aside rfl rfl rfl rfl
  | getClass name => exact pieces.stays_getClass name
  | extend name => exact pieces.stays_extend name
  | implement name => exact pieces.stays_implement name
  | wrap value => exact pieces.stays_wrap value
  | cast name value => exact pieces.stays_cast name value
  | getField proxy name => exact proxy.stays_getField pieces.wraps name
  | setField proxy name value => exact pieces.setField proxy name value
  | isInstanceOf id name => exact pieces.stays_isInstanceOf id name
  | superView id => exact pieces.stays_superView id
  | setOverrides id overrides => exact pieces.stays_setOverrides id overrides
  | release id => exact pieces.forget w id
  | addFunction body => exact pieces.aside rfl rfl rfl rfl
  | setVariable name value => exact pieces.setVariable w name value
  | endScope => exact pieces.endScope w [] []
  | _ => cases plain

theorem Pieces.of_plain [IsPreorder World R] (pieces : Pieces R) {move : Move}
    (plain : move.Plain) (raw : move.Raw → R w (move.apply w)) : R w (move.apply w) := by
  cases move with
  | act action => exact pieces.of_plainAction plain
  | openScope => exact pieces.aside rfl rfl rfl rfl
  | closeScope outer result => exact pieces.endScope w outer result
  | hold value => exact pieces.hold w value
  | note event => exact pieces.aside rfl rfl rfl rfl
  | log entry => exact pieces.aside rfl rfl rfl rfl
  | prepareCall proxy site => exact pieces.stays_prepareCall proxy site
  | receiverHandle dispatcher receiver =>
    exact Invoke.stays_receiverHandle (ε := BridgeError) pieces.wraps pieces.hold dispatcher
      receiver
  | toScript value => exact pieces.wraps.toScript (ε := BridgeError) value
  | prepareNew handle args => exact pieces.stays_prepareNew handle args
  | addDispatcher overrides => exact raw trivial
  | allocate c args handler => exact raw trivial
  | generateSubclass base => exact pieces.stays_onRegistryNoted (pieces.generateSubclass w base)
  | generateImplementation interface =>
    exact pieces.stays_onRegistryNoted (pieces.generateImplementation w interface)
  | setField f receiver value => exact raw trivial
  | storeElement array index value => exact pieces.stays_storeElement array index value
  | castTo id type => exact pieces.stays_castTo id type
  | setAlias name id => exact pieces.aside rfl rfl rfl rfl
  | removeVariable name => exact pieces.removeVariable w name
  | purge => exact pieces.purge w
  | _ => cases plain

end Interop
