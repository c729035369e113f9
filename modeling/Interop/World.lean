import Interop.Config.Basic
import Interop.Handle.Recency
import Interop.Handle.Table
import Interop.Overload.Choice
import Interop.Registry.Definition
import Interop.Registry.Generated
import Interop.Script.Code

/-!
The state that native and script code share, and tasks on it.

A task may fail; what it has changed until then stays changed. References to handles that a task
takes belong to the scope in which it runs and are dropped when the scope ends, except those that
occur in its result.
-/
namespace Interop

/-- What a class handle makes instances of. -/
inductive ClassKind where
  | plain
  | subclass
  | implementation
  deriving DecidableEq, Repr

def ClassKind.describe : ClassKind → String
  | plain => "Plain"
  | subclass => "DynamicSubclass"
  | implementation => "InterfaceImplementation"

structure ClassHandle where
  /-- The type whose instances the handle makes. -/
  type : TypeId
  /-- The type under which script code sees it. -/
  reported : TypeId
  name : String
  kind : ClassKind

def ClassHandle.describe (handle : ClassHandle) : String :=
  Text.recordText "ClassHandle" [
    ("name", Text.quote handle.name),
    ("type", handle.type.text),
    ("kind", handle.kind.describe)]

/-- Script functions by the name of the method they override. -/
abbrev Overrides := List (String × FunctionId)

/-- Routes the virtual calls of one object; knows its handle without keeping it alive. -/
structure Dispatcher where
  overrides : Overrides
  handle : Option HandleId

/-- A native value with the elements of arrays in it. An array inside itself is shown without. -/
inductive Picture where
  | plain (value : Value)
  | object (cls : String) (address : Nat)
  | array (cls : String) (address : Nat) (elements : List Picture)
  | arrayAgain (cls : String) (address : Nat)

/-- A script value with the names that its handles had. -/
inductive ScriptPicture where
  | plain (value : ScriptValue)
  | array (items : List ScriptPicture)
  | dict (entries : List (String × ScriptPicture))
  | function
  | cls (name : String) (id : ClassId)
  | instance (name : String) (id : HandleId) (target : Nat)

/-- An entry of the log that code writes to. -/
inductive LogEntry where
  | native (value : Picture)
  | script (value : ScriptPicture)
  | handler (member : String)

/-- Whether the host lets the bridge be used: always, or as a switch says. -/
inductive Gate where
  | always
  | switch (isOpen : Bool)
  deriving DecidableEq, Repr

def Gate.isOpen : Gate → Bool
  | always => true
  | switch isOpen => isOpen

/-- Turns a switch; a gate without one stays open. -/
def Gate.turn (isOpen : Bool) : Gate → Gate
  | always => always
  | switch _ => switch isOpen

structure World where
  registry : Registry
  heap : Heap
  memo : Overload.Memo
  dispatchers : List Dispatcher
  handles : HandleTable
  classes : List ClassHandle
  classCache : RecencyCache ClassId
  functions : List ScriptCode
  /-- Script variables; they keep the handles in their values alive. -/
  scriptVariables : List (String × ScriptValue)
  nativeVariables : List (String × Value)
  /-- Names for types. -/
  aliases : List (String × TypeId)
  /-- References that the running scope has taken. -/
  held : List HandleId
  config : Config
  gate : Gate
  log : List LogEntry
  events : List Event

namespace World

def initial (config : Config) (gate : Gate) : World where
  registry := .initial
  heap := .empty
  memo := .empty config.memoizeDistances
  dispatchers := []
  handles := .empty
  classes := []
  classCache := .empty config.classCacheSize
  functions := []
  scriptVariables := []
  nativeVariables := []
  aliases := []
  held := []
  config := config
  gate := gate
  log := []
  events := []

def handle? (w : World) (id : HandleId) : Option Handle := w.handles.get? id
def class? (w : World) (id : ClassId) : Option ClassHandle := w.classes[id.index]?
def dispatcher? (w : World) (id : DispatcherId) : Option Dispatcher := w.dispatchers[id.index]?

/-- The name of a class handle. -/
def className (w : World) (id : ClassId) : String :=
  match w.class? id with
  | some handle => handle.name
  | none => ""

/-- The name of the type under which script code sees an object. -/
def instanceName (w : World) (id : HandleId) : String :=
  match w.handle? id with
  | some handle => w.registry.typeName handle.view
  | none => ""

def describeScript (w : World) (value : ScriptValue) : String :=
  value.describe w.className w.instanceName

def retainAll (w : World) (ids : List HandleId) : World :=
  { w with handles := ids.foldl HandleTable.retain w.handles }

def dropAll (w : World) (ids : List HandleId) : World :=
  { w with handles := ids.foldl HandleTable.drop w.handles }

/-- Takes a reference to each handle in a value for the running scope. -/
def hold (w : World) (value : ScriptValue) : World :=
  let w := w.retainAll value.handles
  { w with held := value.handles ++ w.held }

/-- Ends a scope: the outer scope takes over the handles of the result, and all that the inner scope
held is dropped. -/
def endScope (w : World) (outer result : List HandleId) : World :=
  let w := (w.retainAll result).dropAll w.held
  { w with held := result ++ outer }

def setVariable (w : World) (name : String) (value : ScriptValue) : World :=
  let old := ((w.scriptVariables.lookup name).map ScriptValue.handles).getD []
  let w := (w.retainAll value.handles).dropAll old
  { w with scriptVariables := (name, value) :: w.scriptVariables.filter (fun entry => entry.1 != name) }

def removeVariable (w : World) (name : String) : World :=
  let old := ((w.scriptVariables.lookup name).map ScriptValue.handles).getD []
  { w.dropAll old with scriptVariables := w.scriptVariables.filter (fun entry => entry.1 != name) }

def setNativeVariable (w : World) (name : String) (value : Value) : World :=
  { w with nativeVariables := (name, value) :: w.nativeVariables.filter (fun entry => entry.1 != name) }

def removeNativeVariable (w : World) (name : String) : World :=
  { w with nativeVariables := w.nativeVariables.filter (fun entry => entry.1 != name) }

def setAlias (w : World) (name : String) (id : TypeId) : World :=
  { w with aliases := (name, id) :: w.aliases.filter (fun entry => entry.1 != name) }

/-- The picture of a value inside the arrays of `path`. Each nested array is new to the path, so the
nesting stays within the number of objects. -/
def pictureWithin (w : World) : (fuel : Nat) → (path : List Nat) → Value → Picture
  | _, _, .null => .plain .null
  | 0, _, .object ref => .arrayAgain (w.registry.typeName ref.cls) ref.address
  | fuel + 1, path, .object ref =>
    let name := w.registry.typeName ref.cls
    if !w.heap.isArray ref then .object name ref.address
    else if path.contains ref.address then .arrayAgain name ref.address
    else .array name ref.address ((w.heap.elements ref).map (pictureWithin w fuel (ref.address :: path)))
  | _, _, value => .plain value

def picture (w : World) (value : Value) : Picture :=
  w.pictureWithin (w.heap.objects.length + 1) [] value

mutual

def scriptPicture (w : World) : ScriptValue → ScriptPicture
  | .array items => .array (itemPictures w items)
  | .dict entries => .dict (entryPictures w entries)
  | .function _ => .function
  | .cls id => .cls (w.className id) id
  | .instance id =>
    .instance (w.instanceName id) id (((w.handle? id).map (fun h => h.target.address)).getD 0)
  | value => .plain value

def itemPictures (w : World) : List ScriptValue → List ScriptPicture
  | [] => []
  | item :: rest => scriptPicture w item :: itemPictures w rest

def entryPictures (w : World) : List (String × ScriptValue) → List (String × ScriptPicture)
  | [] => []
  | (key, value) :: rest => (key, scriptPicture w value) :: entryPictures w rest

end

end World

/-- A computation on the world that may fail. -/
abbrev Task (ε α : Type) := EStateM ε World α

namespace Task

variable {ε ε' α : Type}

def ofExcept (result : Except ε α) : Task ε α := fun w =>
  match result with
  | .ok value => .ok value w
  | .error e => .error e w

/-- The same task with its failures seen differently. -/
def mapError (f : ε → ε') (task : Task ε α) : Task ε' α := fun w =>
  match task w with
  | .ok value w => .ok value w
  | .error e w => .error (f e) w

/-- The outcome of a task as a value. -/
def outcome (task : Task ε α) : Task ε' (Except ε α) := fun w =>
  match task w with
  | .ok value w => .ok (.ok value) w
  | .error e w => .ok (.error e) w

def emit (event : Event) : Task ε Unit := modify (fun w => { w with events := w.events ++ [event] })

def logEntry (entry : LogEntry) : Task ε Unit := modify (fun w => { w with log := w.log ++ [entry] })

/-- Runs an operation of the registry. -/
def onRegistry (operation : EStateM NativeError Registry α) : Task NativeError α := fun w =>
  match operation w.registry with
  | .ok value r => .ok value { w with registry := r }
  | .error e r => .error e { w with registry := r }

/-- Runs an operation of the registry that reports events. -/
def onRegistryNoted (operation : Registry → EStateM.Result NativeError Registry α × List Event) :
    Task NativeError α := fun w =>
  match operation w.registry with
  | (.ok value r, events) => .ok value { w with registry := r, events := w.events ++ events }
  | (.error e r, events) => .error e { w with registry := r, events := w.events ++ events }

/-- The type of a name. -/
def lookupType (name : String) : Task ε (Option TypeId) := fun w =>
  let (found, r) := Registry.lookup name w.registry
  .ok found { w with registry := r }

/-- Runs a task in a scope of its own; `kept` gives the handles of its result. -/
def inScope (kept : α → List HandleId) (task : Task ε α) : Task ε α := fun w =>
  match task { w with held := [] } with
  | .ok value after => .ok value (after.endScope w.held (kept value))
  | .error e after => .error e (after.endScope w.held [])

/-- A scope whose result holds no handles. -/
def closed (task : Task ε α) : Task ε α := inScope (fun _ => []) task

/-- A scope whose result is a script value. -/
def scopedValue (task : Task ε ScriptValue) : Task ε ScriptValue := inScope ScriptValue.handles task

/-- A reference to the handle of an object, for the running scope. -/
def wrapObject (object : ObjectRef) : Task ε HandleId := fun w =>
  let view := w.registry.visibleClass object.cls
  let (id, handles) := w.handles.wrap object view (w.heap.dispatcher? object)
  .ok id { w with handles := handles, held := id :: w.held }

/-- A reference to a super view of a handle, for the running scope. -/
def superView (id : HandleId) : Task ε HandleId := fun w =>
  let (view, handles) := w.handles.superView id
  .ok view { w with handles := handles, held := view :: w.held }

/-- A new class handle. -/
def addClass (handle : ClassHandle) : Task ε ClassId := fun w =>
  .ok ⟨w.classes.length⟩ { w with classes := w.classes ++ [handle] }

/-- A new script function. -/
def addFunction (body : ScriptCode) : Task ε FunctionId := fun w =>
  .ok ⟨w.functions.length⟩ { w with functions := w.functions ++ [body] }

end Task

end Interop
