/-!
The primitive kinds of the native side: their names, the classes that box them, and how far
an argument of one kind lies from a parameter of another.
-/
namespace Interop

inductive PrimitiveKind where
  | boolean | byte | short | char | int | long | float | double | void
  deriving DecidableEq, Repr

namespace PrimitiveKind

/-- Every kind, in the order in which the kinds are registered. -/
def all : List PrimitiveKind :=
  [boolean, byte, short, char, int, long, float, double, void]

def name : PrimitiveKind → String
  | boolean => "boolean"
  | byte => "byte"
  | short => "short"
  | char => "char"
  | int => "int"
  | long => "long"
  | float => "float"
  | double => "double"
  | void => "void"

/-- The capitalised name under which a kind stands in a type's description. -/
def label : PrimitiveKind → String
  | boolean => "Boolean"
  | byte => "Byte"
  | short => "Short"
  | char => "Char"
  | int => "Int"
  | long => "Long"
  | float => "Float"
  | double => "Double"
  | void => "Void"

def ofName? (text : String) : Option PrimitiveKind :=
  all.find? (fun kind => kind.name == text)

/-- The class whose instances stand for boxed values; nothing boxes `void`. -/
def boxedName? : PrimitiveKind → Option String
  | boolean => some "core.Boolean"
  | byte => some "core.Byte"
  | short => some "core.Short"
  | char => some "core.Character"
  | int => some "core.Integer"
  | long => some "core.Long"
  | float => some "core.Float"
  | double => some "core.Double"
  | void => none

/-- Position in the widening order of the numeric kinds. -/
def rank? : PrimitiveKind → Option Nat
  | byte => some 0
  | short => some 1
  | int => some 2
  | long => some 3
  | float => some 4
  | double => some 5
  | _ => none

def isNumeric (kind : PrimitiveKind) : Bool := kind.rank?.isSome

/-- Position in `all`. -/
def index : PrimitiveKind → Nat
  | boolean => 0
  | byte => 1
  | short => 2
  | char => 3
  | int => 4
  | long => 5
  | float => 6
  | double => 7
  | void => 8

/-- Steps between two ranks. Booleans and characters take only their own kind, and nothing is
passed as `void`. -/
def distance (parameter argument : PrimitiveKind) : Option Nat :=
  match parameter, argument with
  | boolean, boolean => some 0
  | char, char => some 0
  | _, _ => do
    let row ← parameter.rank?
    let column ← argument.rank?
    return max row column - min row column

end PrimitiveKind

end Interop
