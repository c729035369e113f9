import Interop.Proxy

/-!
The entry points of script code: classes by name, generated types, casts and wrapping. Every one asks
first whether the host lets the bridge be used.
-/
namespace Interop.Bridge

def checkRegistered : Task BridgeError Unit := do
  if !(← get).gate.isOpen then throw .notRegistered

def requireType (name : String) : Task BridgeError TypeId := do
  if name = "" then throw (.invalidArgument .emptyClassName)
  match ← Task.lookupType name with
  | some type => return type
  | none => throw (.notFound (.cls name))

def cacheEvent (message name : String) : Event where
  level := .trace
  message := message
  details := [("class", .text name)]

/-- The handle of a class, from the cache if it is there. -/
def getClass (name : String) : Task BridgeError ClassId := do
  checkRegistered
  let w ← get
  match w.classCache.get name with
  | (some id, cache) =>
    set { w with classCache := cache }
    Task.emit (cacheEvent "class cache hit" name)
    return id
  | (none, _) =>
    let type ← requireType name
    let typeName := (← get).registry.typeName type
    let id ← Task.addClass { type := type, reported := type, name := typeName, kind := .plain }
    Task.emit (cacheEvent "class cache miss" name)
    let w ← get
    let (evicted, cache) := w.classCache.put name id
    set { w with classCache := cache }
    match evicted with
    | some old => Task.emit (cacheEvent "evicted class handle" old)
    | none => pure ()
    return id

/-- A handle of the generated subclass of a class. -/
def extend (name : String) : Task BridgeError ClassId := do
  checkRegistered
  let type ← requireType name
  let r := (← get).registry
  if (r.get? type).any TypeInfo.isInterface then throw (.invalidArgument (.isInterface name))
  let typeName := r.typeName type
  let generated ← Task.mapError (BridgeError.ofNative typeName)
    (Task.onRegistryNoted (Registry.generateSubclass type))
  Task.addClass { type := generated, reported := type, name := typeName, kind := .subclass }

/-- A handle of the generated implementation of an interface. -/
def implement (name : String) : Task BridgeError ClassId := do
  checkRegistered
  let type ← requireType name
  let r := (← get).registry
  if !(r.get? type).any TypeInfo.isInterface then throw (.invalidArgument (.notInterface name))
  let typeName := r.typeName type
  let generated ← Task.mapError (BridgeError.ofNative typeName)
    (Task.onRegistryNoted (Registry.generateImplementation type))
  Task.addClass { type := generated, reported := type, name := typeName, kind := .implementation }

def cast (name : String) (value : ScriptValue) : Task BridgeError HandleId := do
  checkRegistered
  match value.instance? with
  | none => throw (.invalidArgument (.notCastable value.typeName))
  | some id =>
    let type ← requireType name
    id.cast type

def wrap (value : Value) : Task BridgeError ScriptValue := do
  checkRegistered
  Marshal.toScript value

def failureEvent (operation : String) (error : BridgeError) : Event where
  level := .error
  message := "bridge operation failed"
  details := [
    ("operation", .text operation),
    ("kind", .text error.kind),
    ("error", .text error.message)]

/-- The form of an operation that never fails: a failure is reported as an event. -/
def reported {α ε : Type} (operation : String) (task : Task BridgeError α) : Task ε (Option α) := do
  match ← Task.outcome task with
  | .ok value => return some value
  | .error e =>
    Task.emit (failureEvent operation e)
    return none

def describe (w : World) : String :=
  Text.recordText "Bridge" [
    ("config", w.config.describe),
    ("cached_classes", Decimal.natText w.classCache.size),
    ("live_instances", Decimal.natText w.handles.liveCount)]

end Interop.Bridge
