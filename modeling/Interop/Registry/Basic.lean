import Interop.Native.Error
import Interop.Native.Type

/-!
The table of types. Types live in numbered slots; the slots of a failed definition are handed out
again. Published types have a name, every component has at most one array type, and every base at
most one generated subclass and one generated implementation.
-/
namespace Interop

namespace TypeId

def primitive (kind : PrimitiveKind) : TypeId := ⟨kind.index⟩

def void : TypeId := primitive .void

def object : TypeId := ⟨9⟩
def string : TypeId := ⟨10⟩
def number : TypeId := ⟨11⟩

/-- The boxed class of a primitive kind. -/
def boxed? : PrimitiveKind → Option TypeId
  | .void => none
  | kind => some ⟨12 + kind.index⟩

/-- The kind of a primitive type or of its boxed class. -/
def unboxedKind? (id : TypeId) : Option PrimitiveKind :=
  PrimitiveKind.all.find? (fun kind => primitive kind == id || boxed? kind == some id)

end TypeId

structure Registry where
  slots : List (Option TypeInfo)
  names : List (String × TypeId)
  /-- Array types by component. -/
  arrays : List (TypeId × TypeId)
  /-- Generated subclasses by base. -/
  subclasses : List (TypeId × TypeId)
  /-- Generated implementations by interface. -/
  implementations : List (TypeId × TypeId)
  /-- The type under definition, and arrays of it that wait for a name. -/
  pending : List TypeId
  /-- Slots to hand out again, the next one first. -/
  free : List TypeId

namespace Registry

/-- Constructors go by one name. -/
def constructorName : String := "<init>"

def get? (r : Registry) (id : TypeId) : Option TypeInfo := (r.slots[id.index]?).join

def require (r : Registry) (id : TypeId) : Except NativeError TypeInfo :=
  match r.get? id with
  | some type => .ok type
  | none => .error (.typeNotFound id.text)

def named? (r : Registry) (name : String) : Option TypeId := r.names.lookup name

def typeName (r : Registry) (id : TypeId) : String :=
  match r.get? id with
  | some type => type.name
  | none => "<unknown " ++ id.text ++ ">"

def size (r : Registry) : Nat := r.slots.length

/-- The types that are there, in slot order. -/
def types (r : Registry) : List TypeInfo := r.slots.filterMap (fun slot => slot)

def component? (r : Registry) (id : TypeId) : Option TypeId := (r.get? id).bind TypeInfo.component?

def primitiveKind? (r : Registry) (id : TypeId) : Option PrimitiveKind :=
  (r.get? id).bind TypeInfo.primitiveKind?

def isPending (r : Registry) (id : TypeId) : Bool := r.pending.contains id

/-- Takes a free slot, or adds one. -/
def reserve (r : Registry) : TypeId × Registry :=
  match r.free with
  | id :: rest => (id, { r with free := rest })
  | [] => (⟨r.slots.length⟩, { r with slots := r.slots ++ [none] })

/-- Puts a type into its slot without publishing its name. -/
def fill (r : Registry) (type : TypeInfo) : Registry :=
  { r with slots := r.slots.set type.id.index (some type) }

/-- Publishes a type under its name. -/
def install (r : Registry) (type : TypeInfo) : Except NativeError Registry :=
  match r.named? type.name with
  | some _ => .error (.duplicateType type.name)
  | none => .ok ({ r with names := (type.name, type.id) :: r.names }.fill type)

def describe (r : Registry) : String :=
  Text.recordText "TypeRegistry" [
    ("types", Decimal.natText r.size),
    ("arrays", Decimal.natText r.arrays.length),
    ("generated", Decimal.natText (r.subclasses.length + r.implementations.length))]

def primitiveTypes : List TypeInfo :=
  PrimitiveKind.all.map fun kind =>
    { TypeInfo.blank (.primitive kind) with
      name := kind.name
      kind := .primitive kind
      modifiers := .publicFinal }

/-- The root class: it can be constructed, and its methods answer by identity. -/
def objectType : TypeInfo :=
  let method (name : String) (params : List TypeId) (returns : TypeId) (body : Body) : Method :=
    { name, params, returns, body := some body
      declaring := .object
      modifiers := .plain
      variadic := false }
  { TypeInfo.blank .object with
    name := "core.Object"
    methods := [
      method "equals" [.object] (.primitive .boolean) .identityEquals,
      method "hashCode" [] (.primitive .int) .identityHash,
      method "toString" [] .string .identityText]
    constructors := [
      { declaring := .object
        params := []
        modifiers := .plain
        variadic := false
        body := none }] }

def stringType : TypeInfo :=
  { TypeInfo.blank .string with
    name := "core.String"
    modifiers := .publicFinal
    superclass := some .object }

def numberType : TypeInfo :=
  { TypeInfo.blank .number with
    name := "core.Number"
    modifiers := .publicAbstract
    superclass := some .object }

def boxedTypes : List TypeInfo :=
  PrimitiveKind.all.filterMap fun kind => do
    let name ← kind.boxedName?
    let id ← TypeId.boxed? kind
    return { TypeInfo.blank id with
      name := name
      modifiers := .publicFinal
      superclass := some (if kind.isNumeric then .number else .object) }

def firstTypes : List TypeInfo :=
  primitiveTypes ++ [objectType, stringType, numberType] ++ boxedTypes

/-- The registry that holds the first types only. -/
def initial : Registry where
  slots := firstTypes.map some
  names := firstTypes.map (fun type => (type.name, type.id))
  arrays := []
  subclasses := []
  implementations := []
  pending := []
  free := []

end Registry

end Interop
