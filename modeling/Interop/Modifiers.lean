/-!
Access and role modifiers of types and members, kept as a sixteen-bit set.
-/
namespace Interop

inductive Modifier where
  | pub | prot | priv | static | final | abstract
  deriving DecidableEq, Repr

namespace Modifier

/-- Every modifier, in the order in which a set lists its names. -/
def all : List Modifier := [pub, prot, priv, static, final, abstract]

def name : Modifier → String
  | pub => "public"
  | prot => "protected"
  | priv => "private"
  | static => "static"
  | final => "final"
  | abstract => "abstract"

def ofName? (text : String) : Option Modifier :=
  all.find? (fun modifier => modifier.name == text)

def bit : Modifier → UInt16
  | pub => 1
  | prot => 2
  | priv => 4
  | static => 8
  | final => 16
  | abstract => 32

end Modifier

/-- A set of modifiers; bits without a name are carried along. -/
structure Modifiers where
  bits : UInt16
  deriving DecidableEq, Repr

namespace Modifiers

def none : Modifiers := ⟨0⟩

def contains (set other : Modifiers) : Bool := (set.bits &&& other.bits) == other.bits

def union (set other : Modifiers) : Modifiers := ⟨set.bits ||| other.bits⟩

def difference (set other : Modifiers) : Modifiers := ⟨set.bits &&& ~~~other.bits⟩

def single (modifier : Modifier) : Modifiers := ⟨modifier.bit⟩

def add (set : Modifiers) (modifier : Modifier) : Modifiers := set.union (single modifier)

def ofList (modifiers : List Modifier) : Modifiers := modifiers.foldl add none

def has (set : Modifiers) (modifier : Modifier) : Bool := set.contains (single modifier)

def isPublic (set : Modifiers) : Bool := set.has .pub
def isProtected (set : Modifiers) : Bool := set.has .prot
def isPrivate (set : Modifiers) : Bool := set.has .priv
def isStatic (set : Modifiers) : Bool := set.has .static
def isFinal (set : Modifiers) : Bool := set.has .final
def isAbstract (set : Modifiers) : Bool := set.has .abstract

/-- Script code reaches public and protected members only. -/
def isAccessible (set : Modifiers) : Bool := set.isPublic || set.isProtected

def names (set : Modifiers) : List String := (Modifier.all.filter set.has).map Modifier.name

/-- What a member or class has when nothing else is said. -/
def plain : Modifiers := single .pub

def publicFinal : Modifiers := ofList [.pub, .final]
def publicAbstract : Modifiers := ofList [.pub, .abstract]

end Modifiers

end Interop
