import Interop.Marshal.Inward
import Interop.Marshal.Outward

/-!
Construction and invocation of native members.

How code runs is a parameter here: a `Runner` gives the meaning of native code and of script
functions. A method runs its most derived implementation; the virtual calls of an object with a
handler go to the handler first, which for script overrides may call back into script code.
-/
namespace Interop

/-- What running native code can see: the receiver and the arguments. -/
structure Frame where
  receiver : Option ObjectRef
  args : List Value

/-- The meaning of native code and of script functions. -/
structure Runner where
  native : Code → Frame → Task NativeError Value
  script : FunctionId → (this : ScriptValue) → (args : List ScriptValue) → Task BridgeError ScriptValue

namespace Frame

def this (frame : Frame) : Except NativeError ObjectRef :=
  match frame.receiver with
  | some object => .ok object
  | none => .error (.nullReceiver "this")

def argument (frame : Frame) (index : Nat) : Except NativeError Value :=
  match frame.args[index]? with
  | some value => .ok value
  | none => .error (.illegalArgument (.missingArgument index frame.args.length))

end Frame

namespace Invoke

/-- An object's own text: its class and the hash of its identity. -/
def identityText (r : Registry) (cls : TypeId) (hash : Int32) : String :=
  r.typeName cls ++ "@" ++ hashText hash

def runBody (run : Runner) (body : Body) (frame : Frame) : Task NativeError Value :=
  match body with
  | .code code => run.native code frame
  | .identityEquals => do
    let this ← Task.ofExcept frame.this
    let other ← Task.ofExcept (frame.argument 0)
    return .boolean (other.object?.any (fun object => object.same this))
  | .identityHash => do
    let this ← Task.ofExcept frame.this
    return .int this.hash
  | .identityText => do
    let this ← Task.ofExcept frame.this
    return .string (identityText (← get).registry this.cls this.hash)

/-- Runs the body of a method. What the body of a void method answers is dropped. -/
def runMethod (run : Runner) (m : Method) (receiver : Option ObjectRef) (args : List Value) :
    Task NativeError Value := do
  match m.body with
  | none => throw (.abstractMethod ((← get).registry.describeMethod m))
  | some body =>
    let result ← runBody run body ⟨receiver, args⟩
    return if m.returns = .void then .void else result

/-- Runs the most derived implementation of a method, past any handler. -/
def invokeDirect (run : Runner) (m : Method) (receiver : ObjectRef) (args : List Value) :
    Task NativeError Value := do
  let w ← get
  runMethod run ((w.registry.implementation? receiver.cls m).getD m) (some receiver) args

/-- A method that nothing implements answers nothing, or null where it answers with a reference. -/
def abstractDefault (r : Registry) (m : Method) (result : Except NativeError Value) : Except NativeError Value :=
  match result with
  | .error (.abstractMethod name) =>
    if m.returns = .void then .ok .void
    else if (r.get? m.returns).any TypeInfo.isReference then .ok .null
    else .error (.abstractMethod name)
  | other => other

/-- Runs a task, with the default for a method that nothing implements. -/
def withAbstractDefault (m : Method) (task : Task NativeError Value) : Task NativeError Value := do
  let result ← Task.outcome task
  Task.ofExcept (abstractDefault (← get).registry m result)

/-- The root class's methods, answered by the identity of the dispatcher in place of the object's. -/
def identityAnswer? (w : World) (dispatcher : DispatcherId) (receiver : ObjectRef) (m : Method)
    (args : List Value) : Option Value :=
  if m.declaring ≠ .object then none
  else
    match m.name, args with
    | "equals", [other] =>
      some (.boolean ((other.object?.bind w.heap.handler?) == some (.overrides dispatcher)))
    | "hashCode", [] => some (.int dispatcher.hash)
    | "toString", [] => some (.string (identityText w.registry receiver.cls dispatcher.hash))
    | _, _ => none

/-- The handle that an override sees as its receiver: the one bound to the dispatcher if it is
alive. -/
def receiverHandle {ε : Type} (dispatcher : DispatcherId) (receiver : ObjectRef) : Task ε HandleId := do
  let w ← get
  match (w.dispatcher? dispatcher).bind Dispatcher.handle with
  | some id =>
    if w.handles.isAlive id then
      set (w.hold (.instance id))
      return id
    else Task.wrapObject receiver
  | none => Task.wrapObject receiver

def overrideEvent (m : Method) : Event where
  level := .trace
  message := "dispatching to script override"
  details := [("method", .text m.name)]

/-- Calls a script function in place of a method. The result must fit the method's declared type. -/
def callOverride (run : Runner) (dispatcher : DispatcherId) (receiver : ObjectRef) (m : Method)
    (function : FunctionId) (args : List Value) : Task NativeError Value :=
  Task.closed do
    let this ← receiverHandle dispatcher receiver
    let scriptArgs ← Marshal.toScriptAll args
    let result ← Task.mapError
      (fun e => NativeError.thrown ("override " ++ m.name ++ " failed: " ++ e.message))
      (run.script function (.instance this) scriptArgs)
    if m.returns = .void then return .void
    else
      Task.mapError (fun e => .illegalArgument (.unusableResult m.name e.message)) do
        let value ← Marshal.unwrap result
        Marshal.convert value m.returns

/-- A virtual call on an object with overrides: identity first, then a script function of the
method's name, and native code if there is none. -/
def invokeOverridden (run : Runner) (dispatcher : DispatcherId) (receiver : ObjectRef) (m : Method)
    (args : List Value) : Task NativeError Value := do
  let w ← get
  match identityAnswer? w dispatcher receiver m args with
  | some answer => return answer
  | none =>
    let overrides := ((w.dispatcher? dispatcher).map Dispatcher.overrides).getD []
    match overrides.lookup m.name with
    | some function =>
      Task.emit (overrideEvent m)
      callOverride run dispatcher receiver m function args
    | none => withAbstractDefault m (invokeDirect run m receiver args)

/-- Invokes a method after checking arguments and receiver. Final methods and forced calls pass by
the receiver's handler. -/
def dispatch (run : Runner) (throughHandler : Bool) (m : Method) (receiver : Option ObjectRef)
    (args : List Value) : Task NativeError Value := do
  let w ← get
  Task.ofExcept (w.registry.checkArguments m.params args (w.registry.describeMethod m))
  if m.isStatic then runMethod run m none args
  else
    match receiver with
    | none => throw (.nullReceiver (w.registry.describeMethod m))
    | some object =>
      if !w.registry.isAssignable object.cls m.declaring then
        throw (.illegalArgument
          (.notInstance (w.registry.typeName object.cls) (w.registry.typeName m.declaring)))
      let handler := if throughHandler && !m.isFinal then w.heap.handler? object else none
      match handler with
      | some (.overrides dispatcher) => invokeOverridden run dispatcher object m args
      | some .logging =>
        Task.logEntry (.handler (w.registry.describeMethod m))
        invokeDirect run m object args
      | none => invokeDirect run m object args

def invoke (run : Runner) (m : Method) (receiver : Option ObjectRef) (args : List Value) :
    Task NativeError Value :=
  dispatch run true m receiver args

/-- A call that never goes to the receiver's handler. -/
def invokeForced (run : Runner) (m : Method) (receiver : Option ObjectRef) (args : List Value) :
    Task NativeError Value :=
  dispatch run false m receiver args

def superEvent (m : Method) : Event where
  level := .trace
  message := "forced native dispatch"
  details := [("method", .text m.name)]

/-- A call through a super view: past the overrides, to the native implementation. -/
def invokeSuper (run : Runner) (m : Method) (receiver : Option ObjectRef) (args : List Value) :
    Task NativeError Value := do
  Task.emit (superEvent m)
  withAbstractDefault m (invokeForced run m receiver args)

/-- Invokes the first instance method of a name that takes the arguments as they are. -/
def invokeVirtual (run : Runner) (receiver : ObjectRef) (name : String) (args : List Value) :
    Task NativeError Value := do
  let w ← get
  match w.registry.virtualMethod? receiver.cls name args with
  | some m => invoke run m (some receiver) args
  | none => throw (.noSuchMember (w.registry.typeName receiver.cls ++ "." ++ name))

def constructedEvent (cls : String) : Event where
  level := .trace
  message := "constructed native object"
  details := [("class", .text cls)]

/-- Makes an instance of the constructor's class and runs the constructor on it. The handler is
attached before that, so that virtual calls from the constructor already go to it. -/
def construct (run : Runner) (c : Constructor) (args : List Value) (handler : Option Handler) :
    Task NativeError ObjectRef := do
  let w ← get
  let type ← Task.ofExcept (w.registry.require c.declaring)
  if !type.isClass || type.modifiers.isAbstract then throw (.notInstantiable type.name)
  Task.ofExcept (w.registry.checkArguments c.params args (w.registry.describeConstructor c))
  let fields := w.registry.instanceDefaults type.id
  let (object, heap) := w.heap.alloc { cls := type.id, contents := .fields fields, handler := handler }
  set { w with heap := heap }
  match c.body with
  | some code => let _ ← run.native code ⟨some object, args⟩
  | none => pure ()
  Task.emit (constructedEvent type.name)
  return object

def getField (f : Field) (receiver : Option ObjectRef) : Task NativeError Value := do
  let w ← get
  if f.isStatic then
    let owner ← Task.ofExcept (w.registry.require f.declaring)
    return ((w.heap.static? f.declaring f.name).or (owner.initialStatic? f.name)).getD f.default
  else
    match receiver with
    | none => throw (.nullReceiver f.name)
    | some object =>
      match w.heap.field? object f.name with
      | some value => return value
      | none => throw (.noSuchMember (w.registry.typeName object.cls ++ "." ++ f.name))

/-- Writes a field; the value must be of the field's type already. -/
def setField (f : Field) (receiver : Option ObjectRef) (value : Value) : Task NativeError Unit := do
  let w ← get
  if f.modifiers.isFinal then throw (.illegalAccess ("field " ++ f.name ++ " is final"))
  if !w.registry.accepts f.type value then
    throw (.illegalArgument (.fieldMismatch value.describe f.name (w.registry.typeName f.type)))
  if f.isStatic then
    let _ ← Task.ofExcept (w.registry.require f.declaring)
    set { w with heap := w.heap.setStatic f.declaring f.name value }
  else
    match receiver with
    | none => throw (.nullReceiver f.name)
    | some object =>
      match w.heap.setField? object f.name value with
      | some heap => set { w with heap := heap }
      | none => throw (.noSuchMember (w.registry.typeName object.cls ++ "." ++ f.name))

/-- Writes an element of an array; the value must be of the component type. -/
def storeElement (array : ObjectRef) (index : Nat) (value : Value) : Task NativeError Unit := do
  let w ← get
  match w.registry.component? array.cls with
  | none => throw (.illegalArgument (.notArray (w.registry.typeName array.cls)))
  | some component =>
    if !w.registry.accepts component value then
      throw (.illegalArgument (.storeMismatch value.describe (w.registry.typeName array.cls)))
    match w.heap.setElement? array index value with
    | some heap => set { w with heap := heap }
    | none => throw (.illegalArgument (.indexOutOfBounds index (w.heap.elements array).length))

end Invoke

end Interop
