/-!
Mistakes in a request itself, as opposed to failures of what it asks for.
-/
namespace Interop

inductive RequestFault where
  | noType (ref : String)
  | noVariable (name : String)
  | noNativeVariable (name : String)
  | notInstance
  | notClass
  | notHandle
  | notObject
  | noMethod
  | noConstructor
  | noField
  | noDispatcher
  | emptyValue
  | badValueKey (key : String)
  | badValue
  | badTypedArray
  deriving DecidableEq, Repr

def RequestFault.message : RequestFault → String
  | noType ref => "no type " ++ ref
  | noVariable name => "no var " ++ name
  | noNativeVariable name => "no nvar " ++ name
  | notInstance => "not an instance"
  | notClass => "not a class"
  | notHandle => "not a handle"
  | notObject => "not an object"
  | noMethod => "no method"
  | noConstructor => "no constructor"
  | noField => "no field"
  | noDispatcher => "no dispatcher"
  | emptyValue => "empty value"
  | badValueKey key => "bad value " ++ key
  | badValue => "bad value"
  | badTypedArray => "bad typed array"

end Interop
