import Interop.Registry.Subtyping

/-!
Member search. A type is searched before its superclass, the superclass and all it inherits before
the interfaces, and an interface before the root class; each type is visited once.
-/
namespace Interop.Registry

/-- Where a search goes on after a type itself. -/
def searchParents (type : TypeInfo) : List TypeId :=
  type.superclass.toList ++ type.interfaces ++ (if type.isInterface then [.object] else [])

/-- Extends the list of visited types by `id` and all that is found from it. -/
def visit (r : Registry) : (fuel : Nat) → (seen : List TypeId) → TypeId → List TypeId
  | 0, seen, _ => seen
  | fuel + 1, seen, id =>
    if seen.contains id then seen
    else
      match r.get? id with
      | none => seen ++ [id]
      | some type => (searchParents type).foldl (visit r fuel) (seen ++ [id])

/-- A type and its supertypes in search order. Every nested visit adds a type, so the nesting stays
within the number of slots. -/
def searchOrder (r : Registry) (id : TypeId) : List TypeInfo :=
  (r.visit (r.slots.length + 1) [] id).filterMap r.get?

/-- Adds the methods whose signature is not there yet. -/
def addNewMethods (found declared : List Method) : List Method :=
  declared.foldl (fun found m => if found.any (fun other => other.sameSignature m) then found else found ++ [m]) found

/-- The methods of a type and its supertypes; of one signature the first in search order. -/
def allMethods (r : Registry) (id : TypeId) : List Method :=
  (r.searchOrder id).foldl (fun found type => addNewMethods found type.methods) []

/-- The methods that script code can reach. -/
def methods (r : Registry) (id : TypeId) : List Method :=
  (r.allMethods id).filter (fun m => m.modifiers.isAccessible)

def hasRestrictedMethod (r : Registry) (id : TypeId) (name : String) : Bool :=
  (r.allMethods id).any (fun m => m.name == name && !m.modifiers.isAccessible)

/-- The declared constructors that script code can reach. -/
def constructors (r : Registry) (id : TypeId) : List Constructor :=
  match r.get? id with
  | some type => type.constructors.filter (fun c => c.modifiers.isAccessible)
  | none => []

def hasRestrictedConstructor (r : Registry) (id : TypeId) : Bool :=
  match r.get? id with
  | some type => type.constructors.any (fun c => !c.modifiers.isAccessible)
  | none => false

def field? (r : Registry) (id : TypeId) (name : String) : Option Field :=
  (r.searchOrder id).findSome? (fun type => type.fields.find? (fun f => f.name == name))

/-- The fields of a fresh instance with their first values; of one name the first in search order
counts. -/
def instanceDefaults (r : Registry) (id : TypeId) : List (String × Value) :=
  let declared := (r.searchOrder id).flatMap (fun type => type.fields.filter (fun f => !f.isStatic))
  declared.foldl (fun found f =>
    if (found.lookup f.name).isSome then found else found ++ [(f.name, f.default)]) []

/-- The first method with a body and the signature of `m` that is found from `cls`. -/
def implementation? (r : Registry) (cls : TypeId) (m : Method) : Option Method :=
  (r.searchOrder cls).findSome? fun type =>
    type.methods.find? (fun other => other.sameSignature m && other.body.isSome && !other.isStatic)

def hasImplementation (r : Registry) (cls : TypeId) (m : Method) : Bool := (r.implementation? cls m).isSome

/-- A member with its type and parameters, for messages. -/
def describeMember (r : Registry) (name : String) (signature : Signature) : String :=
  r.typeName signature.declaring ++ "." ++ name ++
    "(" ++ Text.commaSeparated (signature.params.map r.typeName) ++ ")"

def describeMethod (r : Registry) (m : Method) : String := r.describeMember m.name m.signature

def describeConstructor (r : Registry) (c : Constructor) : String :=
  r.describeMember constructorName c.signature

/-- The first argument, from `index` on, that its parameter does not accept. -/
def checkEach (r : Registry) (member : String) : (index : Nat) → List TypeId → List Value → Except NativeError Unit
  | index, param :: params, arg :: args =>
    if r.accepts param arg then checkEach r member (index + 1) params args
    else .error (.illegalArgument (.argumentMismatch index member (r.typeName param) arg.describe))
  | _, _, _ => .ok ()

/-- Arguments must match the parameters in number and each in type. -/
def checkArguments (r : Registry) (params : List TypeId) (args : List Value) (member : String) :
    Except NativeError Unit :=
  if params.length = args.length then r.checkEach member 0 params args
  else .error (.illegalArgument (.argumentCount member params.length args.length))

/-- The first instance method called `name` that takes the arguments as they are. -/
def virtualMethod? (r : Registry) (cls : TypeId) (name : String) (args : List Value) : Option Method :=
  (r.allMethods cls).find? fun m =>
    m.name == name && !m.isStatic && m.params.length == args.length &&
      (m.params.zip args).all (fun (param, arg) => r.accepts param arg)

/-- The type under which script code sees an object: for a generated type its interface, or else
its base. -/
def visibleClass (r : Registry) (cls : TypeId) : TypeId :=
  match r.get? cls with
  | some type =>
    if type.generated then (type.interfaces.head?.or type.superclass).getD cls else cls
  | none => cls

end Interop.Registry
