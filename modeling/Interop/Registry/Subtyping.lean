import Interop.Registry.Basic

/-!
Subtyping: how many supertype edges lead from one type to another, and which values a slot of a
type accepts.

Classes and interfaces are searched breadth first, so the first edge that leads to the target ends a
shortest path. Arrays of references follow their components.
-/
namespace Interop.Registry

/-- The superclass, or the root class for an interface, and then the interfaces. -/
def directSupertypes (r : Registry) (id : TypeId) : List TypeId :=
  match r.get? id with
  | none => []
  | some type =>
    let first :=
      match type.kind, type.superclass with
      | _, some superclass => [superclass]
      | .interface, none => [.object]
      | _, none => []
    first ++ type.interfaces

/-- The types that have not been seen; each counts as seen from then on. -/
def unseen : (seen types : List TypeId) → List TypeId
  | _, [] => []
  | seen, type :: types =>
    if seen.contains type then unseen seen types else type :: unseen (type :: seen) types

/-- Takes types off the queue, each with the number of edges that led to it, until one has `target`
among its supertypes. Supertypes are queued when they are first seen. -/
def search (r : Registry) (target : TypeId) :
    (fuel : Nat) → (queue : List (TypeId × Nat)) → (seen : List TypeId) → Option Nat
  | 0, _, _ => none
  | _ + 1, [], _ => none
  | fuel + 1, (current, depth) :: queue, seen =>
    let supertypes := r.directSupertypes current
    if supertypes.contains target then some (depth + 1)
    else
      let found := unseen seen supertypes
      search r target fuel (queue ++ found.map (fun type => (type, depth + 1))) (seen ++ found)

/-- Hops between types that are not both arrays. No type is queued twice, so the queue is empty
after as many turns as there are slots. -/
def climbHops (r : Registry) (source target : TypeId) : Option Nat :=
  r.search target r.slots.length [(source, 0)] [source]

/-- Hops with a bound on how deep array components are followed. -/
def hopsWithin (r : Registry) : (depth : Nat) → (source target : TypeId) → Option Nat
  | 0, _, _ => none
  | depth + 1, source, target =>
    if source = target then some 0
    else
      match r.get? source, r.get? target with
      | some sourceType, some targetType =>
        if sourceType.isPrimitive || targetType.isPrimitive then none
        else
          match sourceType.component?, targetType.component? with
          | some sourceComponent, some targetComponent =>
            match r.get? sourceComponent, r.get? targetComponent with
            | some a, some b =>
              if a.isPrimitive || b.isPrimitive then none
              else hopsWithin r depth sourceComponent targetComponent
            | _, _ => none
          | _, _ => r.climbHops source target
      | _, _ => none

/-- The least number of supertype edges from `source` up to `target`. Primitive types relate only
to themselves. Array types nest no deeper than there are slots. -/
def hops (r : Registry) (source target : TypeId) : Option Nat :=
  r.hopsWithin (r.slots.length + 1) source target

/-- Whether a value of type `source` can stand where `target` is expected. -/
def isAssignable (r : Registry) (source target : TypeId) : Bool := (r.hops source target).isSome

/-- The runtime type of a value. Primitives report their boxed class; null and void have none. -/
def runtimeType? : Value → Option TypeId
  | .string _ => some .string
  | .object ref => some ref.cls
  | value => value.primitiveKind?.bind TypeId.boxed?

/-- Whether a slot of type `id` takes `value` as it is. -/
def accepts (r : Registry) (id : TypeId) (value : Value) : Bool :=
  match r.get? id with
  | none => false
  | some type =>
    match type.primitiveKind? with
    | some kind => value.primitiveKind? == some kind
    | none =>
      match runtimeType? value with
      | none => value.isNull
      | some actual => r.isAssignable actual id

/-- Whether `value` is an instance of the type; null is an instance of nothing. -/
def isInstance (r : Registry) (value : Value) (id : TypeId) : Bool :=
  match runtimeType? value with
  | none => false
  | some actual => r.isAssignable actual id

end Interop.Registry
