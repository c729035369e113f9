import Interop.Heap
import Interop.Script.Value

/-!
Instance handles and the identity cache.

A handle is what script code holds of a native object. Handles are counted: a handle lives as long
as something refers to it. The cache names, for an object, the handle that wrapping the object gives
again; it does not keep that handle alive, and a handle that dies takes its entry with it. A super
view is a further handle on the same object that the cache never names.
-/
namespace Interop

structure Handle where
  target : ObjectRef
  /-- The type under which script code sees the object. -/
  view : TypeId
  dispatcher : Option DispatcherId
  /-- Whether the next call through this handle passes by the overrides. -/
  superCall : Bool
  references : Nat

structure HandleTable where
  handles : List Handle
  /-- The handle that stands for an object, by the object's address. -/
  cache : List (Nat × HandleId)

namespace HandleTable

def empty : HandleTable := ⟨[], []⟩

def get? (t : HandleTable) (id : HandleId) : Option Handle := t.handles[id.index]?

def isAlive (t : HandleTable) (id : HandleId) : Bool :=
  match t.get? id with
  | some handle => 0 < handle.references
  | none => false

def update (t : HandleTable) (id : HandleId) (change : Handle → Handle) : HandleTable :=
  { t with handles := t.handles.modify id.index change }

/-- The live handle that stands for an object. -/
def lookup (t : HandleTable) (object : ObjectRef) : Option HandleId :=
  (t.cache.lookup object.address).filter t.isAlive

/-- One more reference to a handle. -/
def retain (t : HandleTable) (id : HandleId) : HandleTable :=
  t.update id (fun handle => { handle with references := handle.references + 1 })

/-- Removes the cache entry of a handle's object, if the entry is the handle's own or a dead one. -/
def forget (t : HandleTable) (id : HandleId) : HandleTable :=
  match t.get? id with
  | none => t
  | some handle =>
    match t.cache.lookup handle.target.address with
    | none => t
    | some entry =>
      if entry = id || !t.isAlive entry then
        { t with cache := t.cache.filter (fun entry => entry.1 != handle.target.address) }
      else t

/-- One reference less; the last one takes the cache entry along. -/
def drop (t : HandleTable) (id : HandleId) : HandleTable :=
  let t := t.update id (fun handle => { handle with references := handle.references - 1 })
  if t.isAlive id then t else t.forget id

/-- A new handle with one reference, unknown to the cache. -/
def add (t : HandleTable) (handle : Handle) : HandleId × HandleTable :=
  (⟨t.handles.length⟩, { t with handles := t.handles ++ [{ handle with references := 1 }] })

/-- A reference to the handle of an object: the one the cache has, or a new one. -/
def wrap (t : HandleTable) (target : ObjectRef) (view : TypeId) (dispatcher : Option DispatcherId) :
    HandleId × HandleTable :=
  match t.lookup target with
  | some id => (id, t.retain id)
  | none =>
    let (id, t) := t.add { target, view, dispatcher, superCall := false, references := 1 }
    (id, { t with cache := (target.address, id) :: t.cache.filter (fun entry => entry.1 != target.address) })

/-- A reference to a super view of a handle. Without overrides there is nothing to pass by, and the
handle itself serves. -/
def superView (t : HandleTable) (id : HandleId) : HandleId × HandleTable :=
  match t.get? id with
  | none => (id, t)
  | some handle =>
    if handle.dispatcher.isSome then t.add { handle with superCall := true }
    else (id, t.retain id)

def setView (t : HandleTable) (id : HandleId) (view : TypeId) : HandleTable :=
  t.update id (fun handle => { handle with view := view })

/-- Whether the handle's next call passes by the overrides; asking uses that up. -/
def takeSuperCall (t : HandleTable) (id : HandleId) : Bool × HandleTable :=
  match t.get? id with
  | some handle => (handle.superCall, t.update id (fun handle => { handle with superCall := false }))
  | none => (false, t)

/-- The number of objects whose handle is alive. -/
def liveCount (t : HandleTable) : Nat := (t.cache.filter (fun entry => t.isAlive entry.2)).length

/-- Removes the entries of dead handles and counts them. -/
def purge (t : HandleTable) : Nat × HandleTable :=
  let kept := t.cache.filter (fun entry => t.isAlive entry.2)
  (t.cache.length - kept.length, { t with cache := kept })

end HandleTable

end Interop
