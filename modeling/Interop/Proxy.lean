import Interop.CallSite
import Interop.Invoke

/-!
What script code does through handles: calls, field access, new instances, casts and overrides.
-/
namespace Interop

/-- A handle of either kind. -/
inductive Proxy where
  | cls (id : ClassId)
  | instance (id : HandleId)
  deriving DecidableEq, Repr

def ScriptValue.proxy? : ScriptValue → Option Proxy
  | .cls id => some (.cls id)
  | .instance id => some (.instance id)
  | _ => none

namespace Proxy

/-- The type on which members are looked up. -/
def memberType (w : World) : Proxy → TypeId
  | .cls id => ((w.class? id).map ClassHandle.reported).getD .object
  | .instance id => ((w.handle? id).map Handle.view).getD .object

def receiver? (w : World) : Proxy → Option ObjectRef
  | .cls _ => none
  | .instance id => (w.handle? id).map Handle.target

/-- The closest method, with the memo and events of the choice. -/
def chooseMethod (type : TypeId) (name : String) (args : List Value) (onInstance : Bool) :
    Task BridgeError Method := do
  let w ← get
  let (chosen, events, memo) := Overload.chooseMethod w.registry type name args onInstance w.memo
  set { w with memo := memo, events := w.events ++ events }
  Task.ofExcept chosen

def chooseConstructor (type : TypeId) (args : List Value) : Task BridgeError Constructor := do
  let w ← get
  let (chosen, events, memo) := Overload.chooseConstructor w.registry type args w.memo
  set { w with memo := memo, events := w.events ++ events }
  Task.ofExcept chosen

def resolvedEvent (member : String) (arguments : Nat) : Event where
  level := .debug
  message := "resolved native method"
  details := [("member", .text member), ("arguments", .count arguments)]

/-- Whether this call passes by the overrides: the first call with a receiver through a super view
does. -/
def takeSuperCall {ε : Type} (receiver : Option ObjectRef) : Proxy → Task ε Bool
  | .cls _ => return false
  | .instance id => do
    if receiver.isNone then return false
    let w ← get
    let (superCall, handles) := w.handles.takeSuperCall id
    set { w with handles := handles }
    return superCall && ((w.handle? id).bind Handle.dispatcher).isSome

/-- Runs a chosen method with converted arguments. -/
def invokeChosen (run : Runner) (proxy : Proxy) (m : Method) (receiver : Option ObjectRef)
    (args : List Value) : Task NativeError Value := do
  if ← takeSuperCall receiver proxy then Invoke.invokeSuper run m receiver args
  else Invoke.invoke run m receiver args

/-- A call: the arguments are unwrapped, the closest method chosen, the arguments converted to its
parameters, the method invoked, and its result handed to script code. -/
def call (run : Runner) (proxy : Proxy) (site : CallSite) : Task BridgeError ScriptValue := do
  let args ← Marshal.unwrapAll site.args
  let m ← chooseMethod (proxy.memberType (← get)) site.method args site.onInstance
  let w ← get
  let member := w.registry.describeMethod m
  Task.emit (resolvedEvent member args.length)
  let args ← Marshal.convertArguments args m.params m.variadic
  let receiver := if site.onInstance then proxy.receiver? w else none
  let result ← Task.mapError (BridgeError.ofNative member) (invokeChosen run proxy m receiver args)
  Marshal.toScript result

/-- A field that script code can reach. -/
def accessibleField (r : Registry) (type : TypeId) (name : String) : Except BridgeError Field :=
  match r.field? type name with
  | none => .error (.notFound (.field name (r.typeName type)))
  | some f =>
    if f.modifiers.isAccessible then .ok f
    else .error (.accessFailure (.field name (r.typeName type)))

def getField (proxy : Proxy) (name : String) : Task BridgeError ScriptValue := do
  let w ← get
  let f ← Task.ofExcept (accessibleField w.registry (proxy.memberType w) name)
  let value ← Task.mapError (BridgeError.ofNative f.name) (Invoke.getField f (proxy.receiver? w))
  Marshal.toScript value

def setField (proxy : Proxy) (name : String) (value : ScriptValue) : Task BridgeError Unit := do
  let w ← get
  let f ← Task.ofExcept (accessibleField w.registry (proxy.memberType w) name)
  let unwrapped ← Marshal.unwrap value
  let converted ← Marshal.convert unwrapped f.type
  Task.mapError (BridgeError.ofNative f.name) (Invoke.setField f (proxy.receiver? w) converted)

end Proxy

namespace ClassHandle

/-- Runs the closest constructor of the handle's type. -/
def construct (run : Runner) (handle : ClassHandle) (args : List ScriptValue) (handler : Option Handler) :
    Task BridgeError ObjectRef := do
  let args ← Marshal.unwrapAll args
  let c ← Proxy.chooseConstructor handle.type args
  let args ← Marshal.convertArguments args c.params c.variadic
  let w ← get
  Task.mapError (BridgeError.ofNative (w.registry.describeConstructor c)) (Invoke.construct run c args handler)

def constructingEvent (name : String) (overrides : Nat) : Event where
  level := .debug
  message := "constructing generated instance"
  details := [("class", .text name), ("overrides", .count overrides)]

/-- Makes an instance with overrides: the dispatcher comes first, so that the constructor's virtual
calls reach it, and learns the handle of the object afterwards. -/
def constructBound (run : Runner) (handle : ClassHandle) (overrides : Overrides) (args : List ScriptValue) :
    Task BridgeError HandleId := do
  Task.emit (constructingEvent handle.name overrides.length)
  let w ← get
  let dispatcher : DispatcherId := ⟨w.dispatchers.length⟩
  set { w with dispatchers := w.dispatchers ++ [Dispatcher.mk overrides none] }
  let object ← handle.construct run args (some (.overrides dispatcher))
  let id ← Task.wrapObject object
  modify fun w => { w with
    dispatchers := w.dispatchers.modify dispatcher.index (fun d => { d with handle := some id }) }
  return id

/-- A new instance. A generated implementation takes one dictionary of overrides and nothing else. -/
def newInstance (run : Runner) (handle : ClassHandle) (args : List ScriptValue) : Task BridgeError HandleId :=
  match handle.kind with
  | .plain => do
    let object ← handle.construct run (positionalArguments args) none
    Task.wrapObject object
  | .subclass => handle.constructBound run [] (positionalArguments args)
  | .implementation =>
    match args with
    | [.dict entries] => do
      let overrides ← Task.ofExcept (readOverrides entries)
      handle.constructBound run overrides []
    | _ => throw (.invalidArgument (.singleOverrideDictionary handle.name))

/-- A new instance of a generated type with overrides from the start. -/
def newInstanceWithOverrides (run : Runner) (handle : ClassHandle) (overrides : ScriptValue)
    (args : List ScriptValue) : Task BridgeError HandleId := do
  if handle.kind = .plain then throw (.invalidArgument (.notGeneratedType handle.name))
  match overrides.dict? with
  | none => throw (.invalidArgument (.overridesNotDictionary overrides.typeName))
  | some entries =>
    let overrides ← Task.ofExcept (readOverrides entries)
    handle.constructBound run overrides (positionalArguments args)

end ClassHandle

namespace HandleId

def castEvent (target : String) : Event where
  level := .trace
  message := "cast instance handle"
  details := [("to", .text target)]

/-- Changes the type under which script code sees the object. -/
def cast (id : HandleId) (type : TypeId) : Task BridgeError HandleId := do
  let w ← get
  match w.handle? id with
  | none => return id
  | some handle =>
    let target := w.registry.typeName type
    if !w.registry.isAssignable handle.target.cls type then
      throw (.castFailure (w.instanceName id) target)
    set { w with handles := w.handles.setView id type }
    Task.emit (castEvent target)
    return id

def unknownClassEvent (name : String) : Event where
  level := .error
  message := "cannot test instanceof against an unknown class"
  details := [("class", .text name)]

/-- Whether the object is an instance of a class, by name. The name of the view is enough. -/
def isInstanceOf {ε : Type} (id : HandleId) (name : String) : Task ε Bool := do
  let w ← get
  if name = "" then return false
  if w.instanceName id = name then return true
  match ← Task.lookupType name with
  | some type =>
    let w ← get
    return (w.handle? id).any (fun handle => w.registry.isAssignable handle.target.cls type)
  | none =>
    Task.emit (unknownClassEvent name)
    return false

/-- Replaces all overrides of an instance of a generated type. -/
def setOverrides (id : HandleId) (overrides : ScriptValue) : Task BridgeError Unit := do
  let w ← get
  match (w.handle? id).bind Handle.dispatcher with
  | none => throw (.invalidArgument (.notGeneratedInstance (w.instanceName id)))
  | some dispatcher =>
    match overrides.dict? with
    | none => throw (.invalidArgument (.overridesNotDictionary overrides.typeName))
    | some entries =>
      let overrides ← Task.ofExcept (readOverrides entries)
      modify fun w => { w with
        dispatchers := w.dispatchers.modify dispatcher.index (fun d => { d with overrides := overrides }) }

/-- Makes the cache forget the handle; the object's next wrapping gives a new one. -/
def release {ε : Type} (id : HandleId) : Task ε Unit :=
  modify fun w => { w with handles := w.handles.forget id }

end HandleId

end Interop
