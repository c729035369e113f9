import Interop.Event
import Interop.Registry.Arrays

/-!
Definition of classes and interfaces, in two phases. While a type is being defined its slot holds a
placeholder, so its members may refer to the type itself and to arrays of it. A definition that
fails gives back its slot and the slots of those arrays.
-/
namespace Interop.Registry

/-- Every parameter is a type other than `void`, and a variadic member ends with an array. -/
def checkParams (r : Registry) (member : String) : List TypeId → Except NativeError Unit
  | [] => .ok ()
  | param :: rest => do
    let type ← r.require param
    if type.primitiveKind? = some .void then throw (.illegalArgument (.voidParameter member))
    checkParams r member rest

def checkSignature (r : Registry) (params : List TypeId) (variadic : Bool) (member : String) :
    Except NativeError Unit := do
  r.checkParams member params
  if variadic && (params.getLast?.bind r.component?).isNone then
    throw (.illegalArgument (.variadicWithoutArray member))

/-- The superclass of a draft: interfaces have none, and a class must extend a class that is open
to extension. -/
def checkSuperclass (r : Registry) (id : TypeId) (draft : TypeDraft) : Except NativeError (Option TypeId) :=
  if draft.isInterface then
    match draft.superclass with
    | some superclass => .error (.illegalArgument (.interfaceExtends draft.name (r.typeName superclass)))
    | none => .ok none
  else do
    let superclass := draft.superclass.getD .object
    if superclass = id then throw (.notInheritable draft.name .extendsItself)
    let type ← r.require superclass
    if !type.isClass then throw (.notInheritable type.name .notClass)
    if type.modifiers.isFinal then throw (.notInheritable type.name .final)
    return some superclass

def checkInterfaces (r : Registry) (id : TypeId) (name : String) : List TypeId → Except NativeError Unit
  | [] => .ok ()
  | interface :: rest => do
    if interface = id then throw (.illegalArgument (.implementsItself name))
    let type ← r.require interface
    if !type.isInterface then throw (.illegalArgument (.notInterface (r.typeName interface)))
    checkInterfaces r id name rest

/-- A method without a body in an interface is abstract unless it is static. -/
def buildMethod (id : TypeId) (inInterface : Bool) (draft : MethodDraft) : Method where
  name := draft.name
  declaring := id
  params := draft.params
  returns := draft.returns.getD .void
  modifiers :=
    if inInterface && draft.body.isNone && !draft.modifiers.isStatic then draft.modifiers.add .abstract
    else draft.modifiers
  variadic := draft.variadic
  body := draft.body

def checkMethod (r : Registry) (id : TypeId) (inInterface : Bool) (draft : MethodDraft) :
    Except NativeError Method := do
  r.checkSignature draft.params draft.variadic draft.name
  match draft.returns with
  | some returns => let _ ← r.require returns
  | none => pure ()
  return buildMethod id inInterface draft

def checkConstructor (r : Registry) (id : TypeId) (draft : ConstructorDraft) : Except NativeError Constructor := do
  r.checkSignature draft.params draft.variadic constructorName
  return {
    declaring := id
    params := draft.params
    modifiers := draft.modifiers
    variadic := draft.variadic
    body := draft.body }

/-- A field starts with its default, which must be of its type, or else with the zero of a primitive
type or null. -/
def checkField (r : Registry) (id : TypeId) (draft : FieldDraft) : Except NativeError Field := do
  let type ← r.require draft.type
  let value ←
    match draft.default with
    | some value =>
      if r.accepts draft.type value then pure value
      else throw (.illegalArgument (.defaultMismatch draft.name type.name))
    | none => pure ((type.primitiveKind?.map Value.zero).getD .null)
  return {
    name := draft.name
    declaring := id
    type := draft.type
    modifiers := draft.modifiers
    default := value }

/-- Checks a draft and makes the type of it. -/
def buildType (r : Registry) (id : TypeId) (draft : TypeDraft) : Except NativeError TypeInfo := do
  let superclass ← r.checkSuperclass id draft
  r.checkInterfaces id draft.name draft.interfaces
  if draft.isInterface && !draft.constructors.isEmpty then
    throw (.illegalArgument (.interfaceConstructors draft.name))
  let methods ← draft.methods.mapM (r.checkMethod id draft.isInterface)
  let constructors ← draft.constructors.mapM (r.checkConstructor id)
  let fields ← draft.fields.mapM (r.checkField id)
  return {
    id := id
    name := draft.name
    kind := if draft.isInterface then .interface else .cls
    modifiers := draft.modifiers
    superclass := superclass
    interfaces := draft.interfaces
    methods := methods
    constructors := constructors
    fields := fields
    generated := false }

/-- Reserves a slot for a type and puts a nameless placeholder into it. -/
def beginDefinition (r : Registry) : TypeId × Registry :=
  let (id, r) := r.reserve
  (id, { r with pending := id :: r.pending }.fill (.blank id))

/-- Removes the array types over `id` from the index: their slots, innermost first, and the index
that is left. Every step removes an entry. -/
def detachArrays : (fuel : Nat) → TypeId → List (TypeId × TypeId) → List TypeId × List (TypeId × TypeId)
  | 0, _, arrays => ([], arrays)
  | fuel + 1, id, arrays =>
    match arrays.lookup id with
    | none => ([], arrays)
    | some array =>
      let (outer, left) := detachArrays fuel array (arrays.filter (fun entry => entry.1 != id))
      (array :: outer, left)

/-- Gives back the slot of a failed definition and the slots of arrays of it. -/
def release (r : Registry) (id : TypeId) : Registry :=
  let (outer, arrays) := detachArrays r.arrays.length id r.arrays
  let doomed := id :: outer
  { r with
    arrays := arrays
    pending := r.pending.filter (fun p => !doomed.contains p)
    slots := doomed.foldl (fun slots d => slots.set d.index none) r.slots
    free := doomed.reverse ++ r.free }

/-- Names the arrays of a type that has just been published, innermost first. A name that is taken
leaves its array without one. Also gives those failures. -/
def publishArrays : (fuel : Nat) → TypeId → Registry → Registry × List NativeError
  | 0, _, r => (r, [])
  | fuel + 1, component, r =>
    match r.arrays.lookup component with
    | none => (r, [])
    | some array =>
      if r.isPending array then
        let r := { r with pending := r.pending.filter (fun p => p != array) }
        let type := arrayType array component (r.typeName component ++ arraySuffix)
        match r.install type with
        | .ok r => publishArrays fuel array r
        | .error e =>
          let (r, failures) := publishArrays fuel array r
          (r, e :: failures)
      else (r, [])

/-- Takes the type out of those under definition and names its arrays. -/
def settlePending (r : Registry) (id : TypeId) : Registry × List NativeError :=
  publishArrays r.pending.length id { r with pending := r.pending.filter (fun p => p != id) }

def definedEvent (name : String) (id : TypeId) : Event where
  level := .trace
  message := "defined native type"
  details := [("name", .text name), ("id", .text id.text)]

def nameTakenEvent (failure : NativeError) : Event where
  level := .warn
  message := "array type name already taken"
  details := [("error", .text failure.message)]

def releasedEvent (id : TypeId) (failure : NativeError) : Event where
  level := .debug
  message := "released failed definition"
  details := [("id", .text id.text), ("error", .text failure.message)]

/-- Checks and publishes the draft of a type whose slot has been reserved, or gives the slot back. -/
def completeDefinition (id : TypeId) (draft : TypeDraft) (r : Registry) :
    EStateM.Result NativeError Registry TypeId × List Event :=
  let r := r.fill { TypeInfo.blank id with
    name := draft.name
    kind := if draft.isInterface then .interface else .cls }
  match r.buildType id draft with
  | .error e => (.error e (r.release id), [releasedEvent id e])
  | .ok type =>
    match r.install type with
    | .error e => (.error e (r.release id), [definedEvent type.name id, releasedEvent id e])
    | .ok r =>
      let (r, failures) := r.settlePending id
      (.ok id r, definedEvent type.name id :: failures.map nameTakenEvent)

/-- Defines a type whose draft is made beforehand. A name that is taken is refused at once. -/
def define (draft : TypeDraft) (r : Registry) : EStateM.Result NativeError Registry TypeId × List Event :=
  match r.named? draft.name with
  | some _ => (.error (.duplicateType draft.name) r, [])
  | none =>
    let (id, r) := r.beginDefinition
    completeDefinition id draft r

end Interop.Registry
