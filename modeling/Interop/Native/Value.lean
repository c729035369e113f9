import Interop.Primitive
import Interop.Decimal.Binary
import Interop.Text.Quoted
import Interop.Text.Describe

/-!
Values of the native side. Primitives and text are carried as they are; everything else is a
reference to an object of the heap. A reference knows the class of its object, which never changes.
-/
namespace Interop

/-- The slot of a type in the registry. -/
structure TypeId where
  index : Nat
  deriving DecidableEq, Repr

def TypeId.text (id : TypeId) : String := "TypeId(" ++ Decimal.natText id.index ++ ")"

/-- A reference to an object: its place in the heap and its class. -/
structure ObjectRef where
  address : Nat
  cls : TypeId
  deriving DecidableEq, Repr

/-- Two references are the same object when they have the same place. -/
def ObjectRef.same (a b : ObjectRef) : Bool := a.address == b.address

/-- The hash of a memory address: its halves folded together, less the bits that alignment fixes. -/
def identityHash (address : UInt64) : Int32 :=
  ((address ^^^ (address >>> 32)).toUInt32 >>> 3).toInt32

/-- Objects lie 32 apart; their hashes are pairwise different and differ from those of
dispatchers. -/
def ObjectRef.hash (object : ObjectRef) : Int32 := identityHash (32 * (object.address + 1)).toUInt64

def hashText (hash : Int32) : String := Text.hexText hash.toUInt32.toNat

inductive Value where
  | null
  | void
  | boolean (value : Bool)
  | byte (value : Int8)
  | short (value : Int16)
  | char (value : UInt16)
  | int (value : Int32)
  | long (value : Int64)
  | float (value : Float32)
  | double (value : Float)
  | string (value : String)
  | object (ref : ObjectRef)
  deriving Repr

namespace Value

def isNull : Value → Bool
  | null => true
  | _ => false

def primitiveKind? : Value → Option PrimitiveKind
  | boolean _ => some .boolean
  | byte _ => some .byte
  | short _ => some .short
  | char _ => some .char
  | int _ => some .int
  | long _ => some .long
  | float _ => some .float
  | double _ => some .double
  | _ => none

/-- The whole number of an integral value; characters are not numbers. -/
def integer? : Value → Option Int64
  | byte v => some v.toInt64
  | short v => some v.toInt64
  | int v => some v.toInt64
  | long v => some v
  | _ => none

/-- The number of an integral or floating value. -/
def number? : Value → Option Float
  | float v => some v.toFloat
  | double v => some v
  | other => other.integer?.map Int64.toFloat

def boolean? : Value → Option Bool
  | boolean v => some v
  | _ => none

def string? : Value → Option String
  | string v => some v
  | _ => none

def object? : Value → Option ObjectRef
  | object ref => some ref
  | _ => none

/-- Values of one kind with the same contents; objects by identity, and not-a-number equals
nothing. -/
def equals : Value → Value → Bool
  | null, null => true
  | void, void => true
  | boolean a, boolean b => a == b
  | byte a, byte b => a == b
  | short a, short b => a == b
  | char a, char b => a == b
  | int a, int b => a == b
  | long a, long b => a == b
  | float a, float b => a == b
  | double a, double b => a == b
  | string a, string b => a == b
  | object a, object b => a.same b
  | _, _ => false

/-- The value of a field of a primitive type when nothing else is said. -/
def zero : PrimitiveKind → Value
  | .boolean => boolean false
  | .byte => byte 0
  | .short => short 0
  | .char => char 0
  | .int => int 0
  | .long => long 0
  | .float => float 0
  | .double => double 0
  | .void => void

end Value

def ObjectRef.describe (object : ObjectRef) : String :=
  "NativeObject(" ++ object.cls.text ++ "@" ++ hashText object.hash ++ ")"

/-- The text of a value in messages: a suffix tells the kind of a number, and a character stands
as its unit in four digits at least. -/
def Value.describe : Value → String
  | null => "null"
  | void => "void"
  | boolean v => Text.boolText v
  | byte v => Decimal.intText v.toInt ++ "b"
  | short v => Decimal.intText v.toInt ++ "s"
  | char v =>
    let digits := Nat.toDigits 16 v.toNat
    "'\\u\x7b" ++ String.ofList (List.replicate (4 - digits.length) '0' ++ digits) ++ "\x7d'"
  | int v => Decimal.intText v.toInt
  | long v => Decimal.intText v.toInt ++ "L"
  | float v => Decimal.singleText .positional v ++ "f"
  | double v => Decimal.doubleText .positional v ++ "d"
  | string v => Text.quote v
  | object ref => ref.describe

end Interop
