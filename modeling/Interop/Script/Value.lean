import Interop.Decimal.Binary
import Interop.Text.Quoted
import Interop.Text.Describe

/-!
Values of the script side. Functions, class handles and instance handles are numbers into tables
that the world keeps.
-/
namespace Interop

/-- An instance handle, by its number. -/
structure HandleId where
  index : Nat
  deriving DecidableEq, Repr

/-- A class handle, by its number. -/
structure ClassId where
  index : Nat
  deriving DecidableEq, Repr

/-- A script function, by its number. -/
structure FunctionId where
  index : Nat
  deriving DecidableEq, Repr

/-- An array of primitives. -/
inductive TypedArray where
  | boolean (items : List Bool)
  | short (items : List Int16)
  | int (items : List Int32)
  | long (items : List Int64)
  | float (items : List Float32)
  | double (items : List Float)
  deriving Repr

namespace TypedArray

def length : TypedArray → Nat
  | boolean items => items.length
  | short items => items.length
  | int items => items.length
  | long items => items.length
  | float items => items.length
  | double items => items.length

def equals : TypedArray → TypedArray → Bool
  | boolean a, boolean b => a == b
  | short a, short b => a == b
  | int a, int b => a == b
  | long a, long b => a == b
  | float a, float b => a == b
  | double a, double b => a == b
  | _, _ => false

def describe : TypedArray → String
  | boolean items => "Boolean(" ++ Text.listText (items.map Text.boolText) ++ ")"
  | short items => "Short(" ++ Text.listText (items.map fun x => Decimal.intText x.toInt) ++ ")"
  | int items => "Int(" ++ Text.listText (items.map fun x => Decimal.intText x.toInt) ++ ")"
  | long items => "Long(" ++ Text.listText (items.map fun x => Decimal.intText x.toInt) ++ ")"
  | float items => "Float(" ++ Text.listText (items.map (Decimal.singleText .element)) ++ ")"
  | double items => "Double(" ++ Text.listText (items.map (Decimal.doubleText .element)) ++ ")"

end TypedArray

inductive ScriptValue where
  | null
  | boolean (value : Bool)
  | short (value : Int16)
  | int (value : Int32)
  | long (value : Int64)
  | float (value : Float32)
  | double (value : Float)
  | string (value : String)
  | array (items : List ScriptValue)
  | typedArray (items : TypedArray)
  /-- Entries in ascending order of their keys, which are pairwise different. -/
  | dict (entries : List (String × ScriptValue))
  | function (id : FunctionId)
  | cls (id : ClassId)
  | instance (id : HandleId)

namespace ScriptValue

def isNull : ScriptValue → Bool
  | null => true
  | _ => false

def integer? : ScriptValue → Option Int64
  | short v => some v.toInt64
  | int v => some v.toInt64
  | long v => some v
  | _ => none

def number? : ScriptValue → Option Float
  | float v => some v.toFloat
  | double v => some v
  | other => other.integer?.map Int64.toFloat

def boolean? : ScriptValue → Option Bool
  | boolean v => some v
  | _ => none

def string? : ScriptValue → Option String
  | string v => some v
  | _ => none

def dict? : ScriptValue → Option (List (String × ScriptValue))
  | dict entries => some entries
  | _ => none

def instance? : ScriptValue → Option HandleId
  | .instance id => some id
  | _ => none

def class? : ScriptValue → Option ClassId
  | cls id => some id
  | _ => none

/-- The word for the kind of a value in messages. -/
def typeName : ScriptValue → String
  | null => "null"
  | boolean _ => "boolean"
  | short _ | int _ | long _ => "integer"
  | float _ | double _ => "number"
  | string _ => "string"
  | array _ => "array"
  | typedArray _ => "typed array"
  | dict _ => "dictionary"
  | function _ => "function"
  | cls _ => "class proxy"
  | .instance _ => "instance proxy"

/-- Puts an entry in its place by key; an entry with the same key gives way. -/
def insertEntry (key : String) (value : ScriptValue) : List (String × ScriptValue) → List (String × ScriptValue)
  | [] => [(key, value)]
  | (other, old) :: rest =>
    if key = other then (key, value) :: rest
    else if key < other then (key, value) :: (other, old) :: rest
    else (other, old) :: insertEntry key value rest

/-- A dictionary of entries given in any order; of one key the last counts. -/
def ofEntries (entries : List (String × ScriptValue)) : ScriptValue :=
  dict (entries.foldl (fun sorted (key, value) => insertEntry key value sorted) [])

mutual

/-- Same kind and same contents; functions and handles by identity. -/
def equals : ScriptValue → ScriptValue → Bool
  | null, null => true
  | boolean a, boolean b => a == b
  | short a, short b => a == b
  | int a, int b => a == b
  | long a, long b => a == b
  | float a, float b => a == b
  | double a, double b => a == b
  | string a, string b => a == b
  | array a, array b => equalItems a b
  | typedArray a, typedArray b => a.equals b
  | dict a, dict b => equalEntries a b
  | function a, function b => a == b
  | cls a, cls b => a == b
  | .instance a, .instance b => a == b
  | _, _ => false

def equalItems : List ScriptValue → List ScriptValue → Bool
  | [], [] => true
  | a :: restA, b :: restB => equals a b && equalItems restA restB
  | _, _ => false

def equalEntries : List (String × ScriptValue) → List (String × ScriptValue) → Bool
  | [], [] => true
  | (keyA, a) :: restA, (keyB, b) :: restB => keyA == keyB && equals a b && equalEntries restA restB
  | _, _ => false

end

mutual

/-- The handles that occur in a value, with repetitions. -/
def handles : ScriptValue → List HandleId
  | .instance id => [id]
  | array items => itemHandles items
  | dict entries => entryHandles entries
  | _ => []

def itemHandles : List ScriptValue → List HandleId
  | [] => []
  | item :: rest => handles item ++ itemHandles rest

def entryHandles : List (String × ScriptValue) → List HandleId
  | [] => []
  | (_, value) :: rest => handles value ++ entryHandles rest

end

mutual

/-- The text of a value, given how handles are named. -/
def describe (className : ClassId → String) (instanceName : HandleId → String) : ScriptValue → String
  | null => "null"
  | boolean v => Text.boolText v
  | short v => Decimal.intText v.toInt
  | int v => Decimal.intText v.toInt
  | long v => Decimal.intText v.toInt
  | float v => Decimal.singleText .positional v
  | double v => Decimal.doubleText .positional v
  | string v => Text.quote v
  | array items => Text.listText (describeItems className instanceName items)
  | typedArray items => items.describe
  | dict entries => Text.mapText (describeEntries className instanceName entries)
  | function _ => "[function]"
  | cls id => "[class " ++ className id ++ "]"
  | .instance id => "[instance " ++ instanceName id ++ "]"

def describeItems (className : ClassId → String) (instanceName : HandleId → String) :
    List ScriptValue → List String
  | [] => []
  | item :: rest => describe className instanceName item :: describeItems className instanceName rest

def describeEntries (className : ClassId → String) (instanceName : HandleId → String) :
    List (String × ScriptValue) → List (String × String)
  | [] => []
  | (key, value) :: rest =>
    (Text.quote key, describe className instanceName value) :: describeEntries className instanceName rest

end

end ScriptValue

end Interop
