import Interop.Catalog
import Interop.Session.Steps

/-!
Reports: what a session tells about types, members, values and handles. A report shows values as
pictures, so it can be written down after the session has gone on.
-/
namespace Interop

inductive Report where
  | json (json : Json)
  | native (picture : Picture)
  | script (picture : ScriptPicture)
  | list (items : List Report)
  | record (fields : List (String × Report))
  /-- Written, but not shown. -/
  | hidden (report : Report)

namespace Report

def null : Report := json .null
def text (text : String) : Report := json (.ofString text)
def flag (flag : Bool) : Report := json (.boolean flag)
def nat (n : Nat) : Report := json (.ofNat n)
def texts (items : List String) : Report := list (items.map text)

def optional {α : Type} (report : α → Report) : Option α → Report
  | some value => report value
  | none => null

def type (r : Registry) (id : TypeId) : Report :=
  record [("id", nat id.index), ("name", text (r.typeName id))]

def method (r : Registry) (m : Method) : Report := record [
  ("sig", text (r.describeMethod m)),
  ("returns", text (r.typeName m.returns)),
  ("mods", texts m.modifiers.names),
  ("varargs", flag m.variadic),
  ("abstract", flag m.isAbstract)]

def constructor (r : Registry) (c : Constructor) : Report := record [
  ("sig", text (r.describeConstructor c)),
  ("mods", texts c.modifiers.names),
  ("varargs", flag c.variadic)]

def field (w : World) (f : Field) : Report := record [
  ("name", text f.name),
  ("in", text (w.registry.typeName f.declaring)),
  ("type", text (w.registry.typeName f.type)),
  ("mods", texts f.modifiers.names),
  ("static", flag f.isStatic),
  ("default", native (w.picture f.default))]

def primitiveKind (kind : PrimitiveKind) : Report := text kind.name

def kind (r : Registry) : TypeKind → Report
  | .primitive kind => record [("primitive", primitiveKind kind)]
  | .cls => text "class"
  | .interface => text "interface"
  | .array component => record [("array", text (r.typeName component))]

/-- A type with its declared members. -/
def typeInfo (w : World) (t : TypeInfo) : Report :=
  let r := w.registry
  let name (id : TypeId) : Report := text (r.typeName id)
  record [
    ("id", nat t.id.index),
    ("name", text t.name),
    ("kind", kind r t.kind),
    ("mods", texts t.modifiers.names),
    ("superclass", optional name t.superclass),
    ("interfaces", list (t.interfaces.map name)),
    ("supertypes", list ((r.directSupertypes t.id).map name)),
    ("unboxed", optional primitiveKind t.id.unboxedKind?),
    ("component", optional name (r.component? t.id)),
    ("flags", list ([t.isPrimitive, t.isClass, t.isInterface, t.isArray, t.isReference, t.generated].map flag)),
    ("fields", list (t.fields.map (field w))),
    ("ctors", list (t.constructors.map (constructor r))),
    ("methods", list (t.methods.map (method r))),
    ("debug", text t.describe)]

/-- All types of a registry. -/
def registry (r : Registry) : Report := record [
  ("types", list (r.types.map (fun t => list [nat t.id.index, text t.name]))),
  ("len", nat r.size),
  ("empty", flag (r.size == 0)),
  ("debug", text r.describe)]

/-- The types that every registry has under names of their own. -/
def builtins (r : Registry) : Report := record [
  ("object", type r .object),
  ("string", type r .string),
  ("number", type r .number),
  ("void", type r .void)]

/-- A catalog as a document, whether the document reads back as the same catalog, and whether
reading fails without one. -/
def catalog (catalog : Catalog) : Report :=
  let back := match Catalog.load (some catalog.render) with
    | .ok loaded => loaded == catalog
    | .error _ => false
  let missing := match Catalog.load none with
    | .ok _ => false
    | .error _ => true
  record [("text", text catalog.render), ("back", flag back), ("missing", flag missing)]

/-- A 64-bit integer as its decimal digits. -/
def long (value : Int64) : Report := text (Decimal.intText value.toInt)

/-- Digits with zeros before them. -/
def padded (width : Nat) (digits : String) : String :=
  String.ofList (List.replicate (width - digits.length) '0') ++ digits

/-- A float as its bits in hexadecimal digits. All that are not numbers are alike. -/
def doubleBits (value : Float) : String :=
  if value.isNaN then "nan" else padded 16 (Text.hexText value.toBits.toNat)

def singleBits (value : Float32) : String :=
  if value.isNaN then "nan" else padded 8 (Text.hexText value.toBits.toNat)

def double (value : Float) : Report := text (doubleBits value)

/-- What a native value can be seen as. -/
def view (w : World) (value : Value) : Report := record [
  ("debug", text value.describe),
  ("null", flag value.isNull),
  ("kind", optional primitiveKind value.primitiveKind?),
  ("i64", optional long value.integer?),
  ("f64", optional double value.number?),
  ("bool", optional flag value.boolean?),
  ("str", optional text value.string?),
  ("runtime", optional (fun id => text (w.registry.typeName id)) (Registry.runtimeType? value))]

/-- What a script value can be seen as. -/
def scriptView (w : World) (value : ScriptValue) : Report := record [
  ("debug", text (w.describeScript value)),
  ("type", text value.typeName),
  ("null", flag value.isNull),
  ("i64", optional long value.integer?),
  ("f64", optional double value.number?),
  ("bool", optional flag value.boolean?),
  ("str", optional text value.string?),
  ("class", flag value.class?.isSome),
  ("instance", flag value.instance?.isSome),
  ("keys", optional (fun entries => texts (entries.map Prod.fst)) value.dict?),
  ("typed", match value with
    | .typedArray items => list [nat items.length, flag (items.length == 0)]
    | _ => null)]

/-- An array and one of its elements. -/
def element (w : World) (array : ObjectRef) (index : Nat) : Report :=
  let elements := w.heap.elements array
  record [
    ("len", nat elements.length),
    ("array", flag (w.heap.isArray array)),
    ("at", optional (fun value => list [native (w.picture value)]) (w.heap.element? array index)),
    ("all", nat elements.length)]

/-- A field of an object as it is stored, and whether it has just been written. -/
def slot (w : World) (object : ObjectRef) (name : String) (wrote : Option Bool) : Report := record [
  ("wrote", optional flag wrote),
  ("value", optional (fun value => list [native (w.picture value)]) (w.heap.field? object name))]

def callSite (w : World) (site : CallSite) : Report := record [
  ("func", text site.method),
  ("instance", flag site.onInstance),
  ("args", list (site.args.map (fun value => script (w.scriptPicture value))))]

def classHandle (w : World) (id : ClassId) (handle : ClassHandle) : Report :=
  let proxy := Proxy.cls id
  record [
    ("class", text handle.name),
    ("proxy_name", text (w.className id)),
    ("kind", text handle.kind.describe),
    ("is_class", flag true),
    ("wrapped", type w.registry handle.type),
    ("reported", type w.registry handle.reported),
    ("member_type", type w.registry (proxy.memberType w)),
    ("receiver", flag (proxy.receiver? w).isSome),
    ("debug", text handle.describe)]

def dispatcher (w : World) (dispatcher : Dispatcher) : Report := record [
  ("debug", text (Session.dispatcherText w dispatcher)),
  ("len", nat dispatcher.overrides.length),
  ("empty", flag dispatcher.overrides.isEmpty)]

def instanceHandle (w : World) (id : HandleId) (handle : Handle) (cached : Option HandleId) : Report :=
  record [
    ("instance", text (w.instanceName id)),
    ("is_instance", flag true),
    ("reported", type w.registry handle.view),
    ("runtime", type w.registry handle.target.cls),
    ("super_view", flag handle.superCall),
    ("cached", optional (fun id => script (w.scriptPicture (.instance id))) cached),
    ("dispatcher", optional (dispatcher w) (handle.dispatcher.bind w.dispatcher?)),
    ("debug", text (Session.handleText w id handle))]

/-- Either handle. The running scope holds the handle that the cache has for the same object. -/
def proxy : Proxy → Task StepError Report
  | .cls id => do
    let w ← get
    return optional (classHandle w id) (w.class? id)
  | .instance id => do
    match (← get).handle? id with
    | none => return null
    | some handle =>
      let cached ← Session.cachedHandle handle.target
      return instanceHandle (← get) id handle cached

/-- Sizes of the tables, after dead entries have been removed from the identity cache. -/
def statistics : Task StepError Report := do
  let before ← get
  let purged ← Session.purge
  let w ← get
  return record [
    ("classes", nat before.classCache.size),
    ("no_classes", flag (before.classCache.size == 0)),
    ("capacity", nat before.classCache.capacity),
    ("instances", nat before.handles.liveCount),
    ("no_instances", flag (before.handles.liveCount == 0)),
    ("purged", nat purged),
    ("memoized", nat w.memo.size),
    ("registered", flag w.gate.isOpen),
    ("config", text w.config.describe),
    ("debug", text (Bridge.describe w))]

end Report

end Interop
