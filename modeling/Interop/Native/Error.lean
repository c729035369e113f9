import Interop.Decimal.Binary

/-!
Failures of the native side, as causes. Texts that name types or show values are taken when the
failure arises; the wording around them is in `message`.
-/
namespace Interop

/-- What is wrong with an argument, a definition or a value. -/
inductive ArgumentFault where
  | interfaceExtends (interface superclass : String)
  | implementsItself (name : String)
  | notInterface (name : String)
  | interfaceConstructors (name : String)
  | defaultMismatch (field type : String)
  | voidParameter (member : String)
  | variadicWithoutArray (member : String)
  | voidArray
  | elementMismatch (index : Nat) (type value : String)
  | notArray (type : String)
  | storeMismatch (value type : String)
  | indexOutOfBounds (index length : Nat)
  | argumentCount (member : String) (expected given : Nat)
  | argumentMismatch (index : Nat) (member expected given : String)
  | notInstance (cls declaring : String)
  | fieldMismatch (value field type : String)
  | missingArgument (index given : Nat)
  | unusableResult (method reason : String)
  | other (text : String)
  deriving DecidableEq, Repr

open Decimal (natText) in
def ArgumentFault.message : ArgumentFault → String
  | interfaceExtends interface superclass =>
    "interface " ++ interface ++ " cannot extend class " ++ superclass
  | implementsItself name => name ++ " cannot implement itself"
  | notInterface name => name ++ " is not an interface"
  | interfaceConstructors name => "interface " ++ name ++ " cannot declare constructors"
  | defaultMismatch field type => "default of field " ++ field ++ " is not a " ++ type
  | voidParameter member => member ++ ": void is not a parameter type"
  | variadicWithoutArray member => member ++ ": varargs member must end with an array parameter"
  | voidArray => "void[] is not a type"
  | elementMismatch index type value =>
    "element " ++ natText index ++ " is not a " ++ type ++ ": " ++ value
  | notArray type => type ++ " is not an array"
  | storeMismatch value type => "cannot store " ++ value ++ " into " ++ type
  | indexOutOfBounds index length =>
    "index " ++ natText index ++ " out of bounds for length " ++ natText length
  | argumentCount member expected given =>
    "wrong number of arguments for " ++ member ++ ": expected " ++ natText expected ++
      ", got " ++ natText given
  | argumentMismatch index member expected given =>
    "argument " ++ natText index ++ " of " ++ member ++ ": expected " ++ expected ++ ", got " ++ given
  | notInstance cls declaring => cls ++ " is not an instance of " ++ declaring
  | fieldMismatch value field type =>
    "cannot assign " ++ value ++ " to field " ++ field ++ " of type " ++ type
  | missingArgument index given =>
    "missing argument " ++ natText index ++ " (got " ++ natText given ++ ")"
  | unusableResult method reason =>
    "override " ++ method ++ " returned an unusable value: " ++ reason
  | other text => text

/-- Why a type takes no subclass. -/
inductive InheritanceBar where
  | extendsItself
  | notClass
  | final
  | interface
  | priv
  | other (text : String)
  deriving DecidableEq, Repr

def InheritanceBar.message : InheritanceBar → String
  | extendsItself => "a class cannot extend itself"
  | notClass => "not a class"
  | final => "final"
  | interface => "interfaces are implemented, not extended"
  | priv => "private"
  | other text => text

inductive NativeError where
  | typeNotFound (name : String)
  | duplicateType (name : String)
  | noSuchMember (member : String)
  | illegalArgument (fault : ArgumentFault)
  | illegalAccess (text : String)
  | nullReceiver (member : String)
  | abstractMethod (method : String)
  | notInstantiable (name : String)
  | notInheritable (name : String) (bar : InheritanceBar)
  | thrown (text : String)
  deriving DecidableEq, Repr

def NativeError.message : NativeError → String
  | typeNotFound name => "Type not found: " ++ name
  | duplicateType name => "Duplicate type: " ++ name
  | noSuchMember member => "No such member: " ++ member
  | illegalArgument fault => "Illegal argument: " ++ fault.message
  | illegalAccess text => "Illegal access: " ++ text
  | nullReceiver member => "Null receiver for instance member " ++ member
  | abstractMethod method => "Abstract method invoked: " ++ method
  | notInstantiable name => "Type is not instantiable: " ++ name
  | notInheritable name bar => "Type is not inheritable: " ++ name ++ " (" ++ bar.message ++ ")"
  | thrown text => text

end Interop
