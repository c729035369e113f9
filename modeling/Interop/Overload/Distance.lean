import Interop.Registry.Subtyping

/-!
How far an argument lies from a parameter. Primitive parameters count steps of widening, reference
parameters count supertype edges, each of which weighs more than any widening. No distance means
that the argument cannot be passed.

Distances between types may be kept in a memo.
-/
namespace Interop.Overload

/-- The weight of a supertype edge. -/
def hopCost : Nat := 100

/-- Distances stay within 32 bits. -/
def saturate (n : Nat) : Nat := min n 4294967295

/-- The distance between two different types. -/
def typeDistance (r : Registry) (parameter argument : TypeId) : Option Nat :=
  match r.get? parameter with
  | none => none
  | some type =>
    match type.primitiveKind? with
    | some kind => argument.unboxedKind?.bind kind.distance
    | none => (r.hops argument parameter).map (fun hops => saturate (hops * hopCost))

/-- Distances that have been asked for, by parameter and argument. -/
structure Memo where
  enabled : Bool
  entries : List ((TypeId × TypeId) × Option Nat)

def Memo.empty (enabled : Bool) : Memo := ⟨enabled, []⟩

def Memo.size (memo : Memo) : Nat := memo.entries.length

/-- The distance of two types, from the memo if it is there. A type is at distance zero from itself,
which needs no memo. -/
def distance (r : Registry) (parameter argument : TypeId) (memo : Memo) : Option Nat × Memo :=
  if parameter = argument then (some 0, memo)
  else if memo.enabled then
    match memo.entries.lookup (parameter, argument) with
    | some hit => (hit, memo)
    | none =>
      let found := typeDistance r parameter argument
      (found, { memo with entries := ((parameter, argument), found) :: memo.entries })
  else (typeDistance r parameter argument, memo)

/-- The distance of an argument. Null and void have no type; they go exactly to every reference
parameter. -/
def matchArgument (r : Registry) (parameter : TypeId) (argument : Value) (memo : Memo) : Option Nat × Memo :=
  match Registry.runtimeType? argument with
  | some actual => distance r parameter actual memo
  | none =>
    match r.get? parameter with
    | some type => (if type.isPrimitive then none else some 0, memo)
    | none => (none, memo)

/-- Adds up the distances of arguments to parameters, pair by pair, and stops at the first argument
that cannot be passed. -/
def matchPairs (r : Registry) : List (TypeId × Value) → (total : Nat) → Memo → Option Nat × Memo
  | [], total, memo => (some total, memo)
  | (parameter, argument) :: rest, total, memo =>
    match matchArgument r parameter argument memo with
    | (none, memo) => (none, memo)
    | (some found, memo) => matchPairs r rest (saturate (total + found)) memo

/-- The score of a member: the sum of the distances of its arguments. The arguments of a variadic
member beyond its fixed parameters are measured against the component of its last parameter. -/
def score (r : Registry) (member : Signature) (args : List Value) (memo : Memo) : Option Nat × Memo :=
  let fixed := if member.variadic then member.params.dropLast else member.params
  if args.length < fixed.length then (none, memo)
  else
    match matchPairs r (fixed.zip args) 0 memo with
    | (none, memo) => (none, memo)
    | (some total, memo) =>
      if member.variadic then
        match member.params.getLast?.bind r.component? with
        | none => (none, memo)
        | some component =>
          matchPairs r ((args.drop fixed.length).map (fun arg => (component, arg))) total memo
      else (some total, memo)

end Interop.Overload
