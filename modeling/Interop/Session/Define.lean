import Interop.Eval.Literal

/-!
Definition of types from declarations whose types are given by reference.
-/
namespace Interop.Session

/-- Modifiers as they are declared: a list that replaces the usual ones, and two that are added. -/
structure DeclaredModifiers where
  listed : Option Modifiers
  static : Bool
  final : Bool

def DeclaredModifiers.resolve (declared : DeclaredModifiers) (usual : Modifiers) : Modifiers :=
  let listed := declared.listed.getD usual
  let withStatic := if declared.static then listed.add .static else listed
  if declared.final then withStatic.add .final else withStatic

structure FieldDeclaration where
  name : String
  type : TypeRef
  modifiers : DeclaredModifiers
  default : Option Literal

structure ConstructorDeclaration where
  params : List TypeRef
  modifiers : DeclaredModifiers
  variadic : Bool
  body : Option Code

structure MethodDeclaration where
  name : String
  params : List TypeRef
  returns : Option TypeRef
  modifiers : DeclaredModifiers
  variadic : Bool
  body : Option Code

structure TypeDeclaration where
  name : String
  isInterface : Bool
  modifiers : DeclaredModifiers
  superclass : Option TypeRef
  interfaces : List TypeRef
  fields : List FieldDeclaration
  constructors : List ConstructorDeclaration
  methods : List MethodDeclaration

/-- A reference in a declaration; one that names nothing stands for `void`. -/
def declaredType {ε : Type} (ref : TypeRef) : Task ε TypeId := do
  return (← Eval.typeRef? ref).getD .void

def declaredTypes {ε : Type} : List TypeRef → Task ε (List TypeId)
  | [] => return []
  | ref :: rest => do
    let id ← declaredType ref
    let ids ← declaredTypes rest
    return id :: ids

/-- A default; one that cannot be evaluated is null. -/
def declaredDefault {ε : Type} (literal : Literal) : Task ε Value := do
  match ← Task.outcome (Eval.literal literal) with
  | .ok value => return value
  | .error _ => return .null

def optionally {ε α β : Type} (task : α → Task ε β) : Option α → Task ε (Option β)
  | none => return none
  | some a => do return some (← task a)

def draftField {ε : Type} (f : FieldDeclaration) : Task ε FieldDraft := do
  let type ← declaredType f.type
  let value ← optionally declaredDefault f.default
  return { name := f.name, type := type, modifiers := f.modifiers.resolve .plain, default := value }

def draftConstructor {ε : Type} (c : ConstructorDeclaration) : Task ε ConstructorDraft := do
  let params ← declaredTypes c.params
  return { params := params, modifiers := c.modifiers.resolve .plain, variadic := c.variadic, body := c.body }

def draftMethod {ε : Type} (m : MethodDeclaration) : Task ε MethodDraft := do
  let params ← declaredTypes m.params
  let returns ← optionally declaredType m.returns
  return {
    name := m.name
    params := params
    returns := returns
    modifiers := m.modifiers.resolve .plain
    variadic := m.variadic
    body := m.body.map .code }

/-- Drafts one declaration after the other. -/
def draftEach {ε α β : Type} (draft : α → Task ε β) : List α → Task ε (List β)
  | [] => return []
  | a :: rest => do
    let first ← draft a
    let others ← draftEach draft rest
    return first :: others

/-- Looks up all references of a declaration, in the order: superclass, interfaces, fields,
constructors, methods. -/
def draftType {ε : Type} (t : TypeDeclaration) : Task ε TypeDraft := do
  let superclass ← optionally declaredType t.superclass
  let interfaces ← declaredTypes t.interfaces
  let fields ← draftEach draftField t.fields
  let constructors ← draftEach draftConstructor t.constructors
  let methods ← draftEach draftMethod t.methods
  return {
    name := t.name
    isInterface := t.isInterface
    modifiers := t.modifiers.resolve (if t.isInterface then .publicAbstract else .plain)
    superclass := superclass
    interfaces := interfaces
    methods := methods
    constructors := constructors
    fields := fields }

/-- Defines a type whose references are looked up before its slot is reserved. -/
def define (t : TypeDeclaration) : Task NativeError TypeId := do
  let draft ← draftType t
  Task.onRegistryNoted (Registry.define draft)

/-- Defines a type that may refer to itself: while its references are looked up, its slot is there
under the alias `this` and under `aliases`. The aliases stay, also when the definition fails. -/
def defineWithSelf (t : TypeDeclaration) (aliases : List String) : Task NativeError TypeId := do
  let w ← get
  let (id, r) := w.registry.beginDefinition
  set ((("this" :: aliases).foldl (fun w name => w.setAlias name id) { w with registry := r }))
  let draft ← draftType t
  Task.onRegistryNoted (Registry.completeDefinition id draft)

end Interop.Session
