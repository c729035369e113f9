import Interop.Native.Error

/-!
Failures that script code sees, as causes. The wording is in `message`.
-/
namespace Interop

/-- What was not found. -/
inductive Missing where
  | cls (name : String)
  | typeId (id : String)
  | method (name type : String)
  | constructor (type : String)
  | field (name type : String)
  | other (text : String)
  deriving DecidableEq, Repr

def Missing.message : Missing → String
  | cls name => "class " ++ name
  | typeId id => "type " ++ id
  | method name type => "method " ++ name ++ " on " ++ type
  | constructor type => "constructor of " ++ type
  | field name type => "field " ++ name ++ " on " ++ type
  | other text => text

/-- What script code may not reach. -/
inductive AccessFault where
  | method (name type : String)
  | constructors (type : String)
  | field (name type : String)
  | cannotExtend (name reason : String)
  | other (text : String)
  deriving DecidableEq, Repr

def AccessFault.message : AccessFault → String
  | method name type => "method " ++ name ++ " on " ++ type ++ " is not public or protected"
  | constructors type => "constructors of " ++ type ++ " are not public or protected"
  | field name type => "field " ++ name ++ " on " ++ type ++ " is not public or protected"
  | cannotExtend name reason => name ++ " cannot be extended: " ++ reason
  | other text => text

/-- Why a value has no counterpart on the other side. -/
inductive MarshalFault where
  | classProxy (name : String)
  | noCounterpart (typeName : String)
  | mismatch (value type : String)
  | array (cause : NativeError)
  | other (text : String)
  deriving DecidableEq, Repr

def MarshalFault.message : MarshalFault → String
  | classProxy name => "class proxy " ++ name ++ " cannot be passed as a native value"
  | noCounterpart typeName => "a script " ++ typeName ++ " has no native counterpart"
  | mismatch value type => "cannot convert " ++ value ++ " to " ++ type
  | array cause => cause.message
  | other text => text

/-- What is wrong with what script code passes. -/
inductive InvalidArgument where
  | argumentCount (expected given : Nat)
  | tooFewArguments (least given : Nat)
  | variadicWithoutParameters
  | variadicNotArray
  | descriptorNotDictionary (given : String)
  | descriptorWithoutFunction
  | descriptorArguments (given : String)
  | descriptorInstance (given : String)
  | overrideNotFunction (name given : String)
  | overridesNotDictionary (given : String)
  | singleOverrideDictionary (name : String)
  | notGeneratedType (name : String)
  | notGeneratedInstance (name : String)
  | emptyClassName
  | isInterface (name : String)
  | notInterface (name : String)
  | notCastable (given : String)
  | notHandle
  | badExpression
  | tooDeep
  | cannotAdd
  | other (text : String)
  deriving DecidableEq, Repr

open Decimal (natText) in
def InvalidArgument.message : InvalidArgument → String
  | argumentCount expected given =>
    "expected " ++ natText expected ++ " arguments, got " ++ natText given
  | tooFewArguments least given =>
    "expected at least " ++ natText least ++ " arguments, got " ++ natText given
  | variadicWithoutParameters => "varargs member without parameters"
  | variadicNotArray => "varargs parameter is not an array"
  | descriptorNotDictionary given => "call descriptor must be a dictionary, got " ++ given
  | descriptorWithoutFunction => "call descriptor is missing `func`"
  | descriptorArguments given => "`args` must be an array, got " ++ given
  | descriptorInstance given => "`instanceMethod` must be a boolean, got " ++ given
  | overrideNotFunction name given => "override `" ++ name ++ "` must be a function, got " ++ given
  | overridesNotDictionary given => "overrides must be a dictionary, got " ++ given
  | singleOverrideDictionary name =>
    "an instance of " ++ name ++ " takes exactly one dictionary of method overrides"
  | notGeneratedType name => name ++ " is not a generated type and cannot take overrides"
  | notGeneratedInstance name => name ++ " is not an instance of a generated type"
  | emptyClassName => "class name cannot be empty"
  | isInterface name => name ++ " is an interface; implement it instead"
  | notInterface name => name ++ " is not an interface"
  | notCastable given => "only instance handles can be cast, got " ++ given
  | notHandle => "not a handle"
  | badExpression => "bad expression"
  | tooDeep => "too deep"
  | cannotAdd => "cannot add"
  | other text => text

inductive BridgeError where
  | notFound (what : Missing)
  | noMatch (member arguments : String)
  | castFailure (source target : String)
  | invocationFailure (member : String) (cause : NativeError)
  | accessFailure (fault : AccessFault)
  | marshal (fault : MarshalFault)
  | invalidArgument (fault : InvalidArgument)
  | notRegistered
  deriving DecidableEq, Repr

namespace BridgeError

def message : BridgeError → String
  | notFound what => "Not found: " ++ what.message
  | noMatch member arguments => "No " ++ member ++ " matches arguments (" ++ arguments ++ ")"
  | castFailure source target => "Cannot cast " ++ source ++ " to " ++ target
  | invocationFailure member cause => "Error invoking " ++ member ++ ": " ++ cause.message
  | accessFailure fault => "Access denied: " ++ fault.message
  | marshal fault => "Cannot marshal value: " ++ fault.message
  | invalidArgument fault => "Invalid argument: " ++ fault.message
  | notRegistered => "Bridge is not registered for this platform"

/-- The name of the kind of failure. -/
def kind : BridgeError → String
  | notFound _ => "not_found"
  | noMatch _ _ => "no_match"
  | castFailure _ _ => "cast_failure"
  | invocationFailure _ _ => "invocation_failure"
  | accessFailure _ => "access_failure"
  | marshal _ => "marshal"
  | invalidArgument _ => "invalid_argument"
  | notRegistered => "not_registered"

/-- A native failure as script code sees it: refusals and missing types keep their meaning, and
everything else is a failure of the member that was used. -/
def ofNative (member : String) : NativeError → BridgeError
  | .illegalAccess text => accessFailure (.other text)
  | .notInheritable name bar => accessFailure (.cannotExtend name bar.message)
  | .typeNotFound name => notFound (.other name)
  | cause => invocationFailure member cause

end BridgeError

end Interop
