/-!
A cache of bounded size that gives up its least recently used entry. Each use stamps the entry with
the time of a clock that advances at every use.
-/
namespace Interop

structure Stamped (α : Type) where
  key : String
  value : α
  stamp : Nat

structure RecencyCache (α : Type) where
  capacity : Nat
  entries : List (Stamped α)
  clock : Nat

namespace RecencyCache

variable {α : Type}

/-- An empty cache; there is room for one entry at least. -/
def empty (capacity : Nat) : RecencyCache α := ⟨max capacity 1, [], 0⟩

def size (c : RecencyCache α) : Nat := c.entries.length

def find? (c : RecencyCache α) (key : String) : Option (Stamped α) :=
  c.entries.find? (fun entry => entry.key == key)

/-- The value of a key, which becomes the most recently used. -/
def get (c : RecencyCache α) (key : String) : Option α × RecencyCache α :=
  match c.find? key with
  | none => (none, c)
  | some found =>
    let now := c.clock + 1
    (some found.value, { c with
      clock := now
      entries := c.entries.map (fun entry => if entry.key == key then { entry with stamp := now } else entry) })

/-- The entry with the least stamp. -/
def oldest? : List (Stamped α) → Option (Stamped α)
  | [] => none
  | entry :: rest =>
    match oldest? rest with
    | none => some entry
    | some other => some (if entry.stamp ≤ other.stamp then entry else other)

/-- Stores a value as the most recently used, and gives the key that had to go for it. -/
def put (c : RecencyCache α) (key : String) (value : α) : Option String × RecencyCache α :=
  let now := c.clock + 1
  let evicted :=
    if c.capacity ≤ c.size && (c.find? key).isNone then (oldest? c.entries).map Stamped.key else none
  let kept := c.entries.filter (fun entry => entry.key != key && evicted != some entry.key)
  (evicted, { c with clock := now, entries := kept ++ [⟨key, value, now⟩] })

def clear (c : RecencyCache α) : RecencyCache α := { c with entries := [], clock := 0 }

end RecencyCache

end Interop
