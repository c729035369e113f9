import Interop.Native.Value

/-!
The heap of native objects. An object has named fields or numbered elements, and may carry a handler
that its virtual calls go to. Written static fields are kept beside the objects.
-/
namespace Interop

/-- An override dispatcher, by its number. -/
structure DispatcherId where
  index : Nat
  deriving DecidableEq, Repr

/-- Dispatchers have addresses of their own, between those of objects. -/
def DispatcherId.hash (id : DispatcherId) : Int32 := identityHash (32 * (id.index + 1) + 16).toUInt64

/-- What the virtual calls of an object go to: script overrides, or a log that only notes them. -/
inductive Handler where
  | overrides (dispatcher : DispatcherId)
  | logging
  deriving DecidableEq, Repr

inductive Contents where
  | fields (fields : List (String × Value))
  | elements (elements : List Value)

structure Object where
  cls : TypeId
  contents : Contents
  handler : Option Handler

structure Heap where
  objects : List Object
  /-- Static fields that have been written, by declaring type and name. -/
  statics : List ((TypeId × String) × Value)

namespace Heap

def empty : Heap := ⟨[], []⟩

def get? (heap : Heap) (ref : ObjectRef) : Option Object := heap.objects[ref.address]?

def alloc (heap : Heap) (object : Object) : ObjectRef × Heap :=
  (⟨heap.objects.length, object.cls⟩, { heap with objects := heap.objects ++ [object] })

def handler? (heap : Heap) (ref : ObjectRef) : Option Handler := (heap.get? ref).bind Object.handler

/-- The dispatcher of an object with script overrides. -/
def dispatcher? (heap : Heap) (ref : ObjectRef) : Option DispatcherId :=
  match heap.handler? ref with
  | some (.overrides dispatcher) => some dispatcher
  | _ => none

def isArray (heap : Heap) (ref : ObjectRef) : Bool :=
  match (heap.get? ref).map Object.contents with
  | some (.elements _) => true
  | _ => false

/-- The elements of an array; other objects have none. -/
def elements (heap : Heap) (ref : ObjectRef) : List Value :=
  match (heap.get? ref).map Object.contents with
  | some (.elements elements) => elements
  | _ => []

def element? (heap : Heap) (ref : ObjectRef) (index : Nat) : Option Value := (heap.elements ref)[index]?

def field? (heap : Heap) (ref : ObjectRef) (name : String) : Option Value :=
  match (heap.get? ref).map Object.contents with
  | some (.fields fields) => fields.lookup name
  | _ => none

/-- Replaces the contents of an object. -/
def write (heap : Heap) (ref : ObjectRef) (contents : Contents) : Heap :=
  { heap with objects := heap.objects.modify ref.address (fun object => { object with contents := contents }) }

/-- Replaces the value of a name that is there. -/
def replaceField (name : String) (value : Value) : List (String × Value) → List (String × Value)
  | [] => []
  | (other, old) :: rest =>
    if name == other then (other, value) :: rest else (other, old) :: replaceField name value rest

/-- Writes a field that the object has. -/
def setField? (heap : Heap) (ref : ObjectRef) (name : String) (value : Value) : Option Heap :=
  match (heap.get? ref).map Object.contents with
  | some (.fields fields) =>
    if (fields.lookup name).isSome then some (heap.write ref (.fields (replaceField name value fields)))
    else none
  | _ => none

/-- Writes an element within the bounds of an array. -/
def setElement? (heap : Heap) (ref : ObjectRef) (index : Nat) (value : Value) : Option Heap :=
  match (heap.get? ref).map Object.contents with
  | some (.elements elements) =>
    if index < elements.length then some (heap.write ref (.elements (elements.set index value)))
    else none
  | _ => none

def static? (heap : Heap) (declaring : TypeId) (name : String) : Option Value :=
  heap.statics.lookup (declaring, name)

def setStatic (heap : Heap) (declaring : TypeId) (name : String) (value : Value) : Heap :=
  { heap with
    statics := ((declaring, name), value) :: heap.statics.filter (fun entry => entry.1 != (declaring, name)) }

end Heap

end Interop
