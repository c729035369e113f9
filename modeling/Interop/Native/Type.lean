import Interop.Modifiers
import Interop.Native.Code

/-!
Types and their members as the registry keeps them, and as a definition declares them.
-/
namespace Interop

inductive TypeKind where
  | primitive (kind : PrimitiveKind)
  | cls
  | interface
  | array (component : TypeId)
  deriving DecidableEq, Repr

def TypeKind.describe : TypeKind → String
  | primitive kind => "Primitive(" ++ kind.label ++ ")"
  | cls => "Class"
  | interface => "Interface"
  | array component => "Array(" ++ component.text ++ ")"

structure Method where
  name : String
  declaring : TypeId
  params : List TypeId
  returns : TypeId
  modifiers : Modifiers
  variadic : Bool
  body : Option Body

structure Constructor where
  declaring : TypeId
  params : List TypeId
  modifiers : Modifiers
  variadic : Bool
  body : Option Code

structure Field where
  name : String
  declaring : TypeId
  type : TypeId
  modifiers : Modifiers
  default : Value

namespace Method

def isStatic (m : Method) : Bool := m.modifiers.isStatic
def isFinal (m : Method) : Bool := m.modifiers.isFinal
def isAbstract (m : Method) : Bool := m.body.isNone

/-- Methods with the same name and parameters: one overrides the other. -/
def sameSignature (a b : Method) : Bool := a.name == b.name && a.params == b.params

def describe (m : Method) : String :=
  Text.recordText "Method" [
    ("name", Text.quote m.name),
    ("declaring", m.declaring.text),
    ("params", Text.listText (m.params.map TypeId.text)),
    ("return_type", m.returns.text),
    ("modifiers", Text.listText (m.modifiers.names.map Text.quote)),
    ("varargs", Text.boolText m.variadic),
    ("abstract", Text.boolText m.isAbstract)]

end Method

def Constructor.describe (c : Constructor) : String :=
  Text.recordText "Constructor" [
    ("declaring", c.declaring.text),
    ("params", Text.listText (c.params.map TypeId.text)),
    ("modifiers", Text.listText (c.modifiers.names.map Text.quote)),
    ("varargs", Text.boolText c.variadic)]

def Field.isStatic (f : Field) : Bool := f.modifiers.isStatic

def Field.describe (f : Field) : String :=
  Text.recordText "Field" [
    ("name", Text.quote f.name),
    ("declaring", f.declaring.text),
    ("ty", f.type.text),
    ("modifiers", "Modifiers(" ++ Decimal.natText f.modifiers.bits.toNat ++ ")"),
    ("default", f.default.describe)]

/-- What overload choice needs to know of a member. -/
structure Signature where
  declaring : TypeId
  params : List TypeId
  variadic : Bool
  deriving DecidableEq, Repr

def Method.signature (m : Method) : Signature := ⟨m.declaring, m.params, m.variadic⟩
def Constructor.signature (c : Constructor) : Signature := ⟨c.declaring, c.params, c.variadic⟩

structure TypeInfo where
  id : TypeId
  name : String
  kind : TypeKind
  modifiers : Modifiers
  superclass : Option TypeId
  interfaces : List TypeId
  methods : List Method
  constructors : List Constructor
  fields : List Field
  generated : Bool

namespace TypeInfo

/-- A public class without a name, a superclass or members. -/
def blank (id : TypeId) : TypeInfo where
  id := id
  name := ""
  kind := .cls
  modifiers := .plain
  superclass := none
  interfaces := []
  methods := []
  constructors := []
  fields := []
  generated := false

def primitiveKind? (t : TypeInfo) : Option PrimitiveKind :=
  match t.kind with
  | .primitive kind => some kind
  | _ => none

def component? (t : TypeInfo) : Option TypeId :=
  match t.kind with
  | .array component => some component
  | _ => none

def isPrimitive (t : TypeInfo) : Bool := t.primitiveKind?.isSome
def isArray (t : TypeInfo) : Bool := t.component?.isSome
def isClass (t : TypeInfo) : Bool := t.kind == .cls
def isInterface (t : TypeInfo) : Bool := t.kind == .interface
def isReference (t : TypeInfo) : Bool := !t.isPrimitive

def describe (t : TypeInfo) : String :=
  Text.recordText "NativeType" [
    ("id", t.id.text),
    ("name", Text.quote t.name),
    ("kind", t.kind.describe),
    ("modifiers", Text.listText (t.modifiers.names.map Text.quote)),
    ("superclass", Text.optionText TypeId.text t.superclass),
    ("interfaces", Text.listText (t.interfaces.map TypeId.text)),
    ("methods", Decimal.natText t.methods.length),
    ("constructors", Decimal.natText t.constructors.length),
    ("fields", Decimal.natText t.fields.length),
    ("generated", Text.boolText t.generated)]

/-- The value a static field starts with: of several static fields with one name, the last
declared gives it. -/
def initialStatic? (t : TypeInfo) (name : String) : Option Value :=
  (t.fields.reverse.find? (fun f => f.isStatic && f.name == name)).map Field.default

end TypeInfo

structure MethodDraft where
  name : String
  params : List TypeId
  returns : Option TypeId
  modifiers : Modifiers
  variadic : Bool
  body : Option Body

structure ConstructorDraft where
  params : List TypeId
  modifiers : Modifiers
  variadic : Bool
  body : Option Code

structure FieldDraft where
  name : String
  type : TypeId
  modifiers : Modifiers
  default : Option Value

/-- A class or interface as it is declared, before the registry has checked it. -/
structure TypeDraft where
  name : String
  isInterface : Bool
  modifiers : Modifiers
  superclass : Option TypeId
  interfaces : List TypeId
  methods : List MethodDraft
  constructors : List ConstructorDraft
  fields : List FieldDraft

end Interop
