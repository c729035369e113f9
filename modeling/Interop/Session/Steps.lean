import Interop.Bridge
import Interop.Eval.Engine

/-!
What a session does with native members, overloads and handles on request.
-/
namespace Interop.Session

def requiredType (ref : TypeRef) : Task StepError TypeInfo := do
  let id ← Eval.typeRef ref
  Task.mapError .native (Task.ofExcept ((← get).registry.require id))

def declaredMethod (ref : TypeRef) (index : Nat) : Task StepError Method := do
  match (← requiredType ref).methods[index]? with
  | some m => return m
  | none => throw (.request .noMethod)

def declaredConstructor (ref : TypeRef) (index : Nat) : Task StepError Constructor := do
  match (← requiredType ref).constructors[index]? with
  | some c => return c
  | none => throw (.request .noConstructor)

def fieldByName (ref : TypeRef) (name : String) : Task StepError Field := do
  let id ← Eval.typeRef ref
  match (← get).registry.field? id name with
  | some f => return f
  | none => throw (.request .noField)

def requireObject (value : Value) : Except StepError ObjectRef :=
  match value.object? with
  | some object => .ok object
  | none => .error (.request .notObject)

/-- Makes an object, with a handler that logs its virtual calls if asked for. -/
def construct (c : Constructor) (args : List Value) (logging : Bool) : Task StepError ObjectRef :=
  Task.mapError .native
    (Invoke.construct Eval.run c args (if logging then some .logging else none))

/-- How a method is invoked. -/
inductive Mode where
  | virtual
  | forced
  | direct
  | overSuper
  deriving DecidableEq, Repr

def invoke (mode : Mode) (m : Method) (receiver : Value) (args : List Value) : Task StepError Value := do
  match mode with
  | .virtual => Task.mapError .native (Invoke.invoke Eval.run m receiver.object? args)
  | .forced => Task.mapError .native (Invoke.invokeForced Eval.run m receiver.object? args)
  | .direct =>
    let object ← Task.ofExcept (requireObject receiver)
    Task.mapError .native (Invoke.invokeDirect Eval.run m object args)
  | .overSuper =>
    let object ← Task.ofExcept (requireObject receiver)
    let id ← Task.wrapObject object
    if ((← get).handle? id).any (fun handle => handle.dispatcher.isSome) then
      Task.mapError .native (Invoke.invokeSuper Eval.run m (some object) args)
    else throw (.request .noDispatcher)

def invokeVirtual (receiver : ObjectRef) (name : String) (args : List Value) : Task StepError Value :=
  Task.mapError .native (Invoke.invokeVirtual Eval.run receiver name args)

def storeElement (array : ObjectRef) (index : Nat) (value : Value) : Task StepError Unit :=
  Task.mapError .native (Invoke.storeElement array index value)

/-- Writes a field of an object without looking at its declared type, and tells whether the object
has the field. -/
def writeSlot (object : ObjectRef) (name : String) (value : Value) : Task StepError Bool := do
  let w ← get
  match w.heap.setField? object name value with
  | some heap =>
    set { w with heap := heap }
    return true
  | none => return false

def distance (parameter argument : TypeId) : Task StepError (Option Nat) := do
  let w ← get
  let (found, memo) := Overload.distance w.registry parameter argument w.memo
  set { w with memo := memo }
  return found

def matchArgument (parameter : TypeId) (argument : Value) : Task StepError (Option Nat) := do
  let w ← get
  let (found, memo) := Overload.matchArgument w.registry parameter argument w.memo
  set { w with memo := memo }
  return found

def score (member : Signature) (args : List Value) : Task StepError (Option Nat) := do
  let w ← get
  let (found, memo) := Overload.score w.registry member args w.memo
  set { w with memo := memo }
  return found

/-- The scores of all reachable methods of a name. -/
def scores (type : TypeId) (name : String) (args : List Value) : Task StepError (List (Method × Option Nat)) := do
  let w ← get
  go ((w.registry.methods type).filter (fun m => m.name == name))
where
  go : List Method → Task StepError (List (Method × Option Nat))
    | [] => return []
    | m :: rest => do
      let found ← score m.signature args
      let others ← go rest
      return (m, found) :: others

def classVariable (name : String) : Task StepError ClassHandle := do
  let value ← Eval.readVariable name
  match value.class?.bind (← get).class? with
  | some handle => return handle
  | none => throw (.request .notClass)

def requireProxy (value : ScriptValue) : Except StepError Proxy :=
  match value.proxy? with
  | some proxy => .ok proxy
  | none => .error (.request .notHandle)

/-- A new instance, with overrides if there are any. -/
def newInstance (handle : ClassHandle) (args : List ScriptValue) (overrides : Option ScriptValue) :
    Task BridgeError ScriptValue := do
  match overrides with
  | some overrides => return .instance (← handle.newInstanceWithOverrides Eval.run overrides args)
  | none => return .instance (← handle.newInstance Eval.run args)

/-- The handle that the cache has for an object; the running scope holds it. -/
def cachedHandle (object : ObjectRef) : Task StepError (Option HandleId) := do
  let w ← get
  match w.handles.lookup object with
  | some id =>
    set (w.hold (.instance id))
    return some id
  | none => return none

def overridesText (overrides : Overrides) : String :=
  Text.recordText "OverrideMap"
    [("methods", Text.listText (overrides.map (fun entry => Text.quote entry.1)))]

def dispatcherText (w : World) (dispatcher : Dispatcher) : String :=
  Text.recordText "OverrideDispatcher" [
    ("overrides", overridesText dispatcher.overrides),
    ("bound", Text.boolText (dispatcher.handle.any w.handles.isAlive))]

def handleText (w : World) (id : HandleId) (handle : Handle) : String :=
  Text.recordText "InstanceHandle" [
    ("view", Text.quote (w.instanceName id)),
    ("target", handle.target.describe),
    ("generated", Text.boolText handle.dispatcher.isSome),
    ("super_view", Text.boolText handle.superCall)]

/-- Removes a script variable and a native variable of one name, and tells which were there. -/
def dropVariables (name : String) : Task StepError (Bool × Bool) := do
  let w ← get
  let hadScript := (w.scriptVariables.lookup name).isSome
  let hadNative := (w.nativeVariables.lookup name).isSome
  set ((w.removeVariable name).removeNativeVariable name)
  return (hadScript, hadNative)

/-- The class handle that the cache has for a name; it becomes the most recently used. -/
def cachedClass (name : String) : Task StepError (Option ClassId) := do
  let w ← get
  let (found, cache) := w.classCache.get name
  set { w with classCache := cache }
  return found

def clearClasses : Task StepError Unit :=
  modify (fun w => { w with classCache := w.classCache.clear })

/-- Removes dead entries from the identity cache and counts them. -/
def purge : Task StepError Nat := do
  let w ← get
  let (count, handles) := w.handles.purge
  set { w with handles := handles }
  return count

def turnGate (isOpen : Bool) : Task StepError Bool := do
  modify (fun w => { w with gate := w.gate.turn isOpen })
  return (← get).gate.isOpen

end Interop.Session
