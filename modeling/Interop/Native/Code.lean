import Interop.Native.Value
import Interop.Request

/-!
Native code: literals and the expressions that bodies of methods and constructors are made of.
-/
namespace Interop

/-- A type by name. A leading `@` names an alias instead, and each `[]` at the end an array. -/
structure TypeRef where
  text : String
  deriving DecidableEq, Repr

/-- A native value as it is written down. Components and variables are looked up when the literal
is evaluated; a literal that makes no sense fails then. -/
inductive Literal where
  | value (value : Value)
  | array (component : TypeRef) (elements : List Literal)
  | var (name : String)
  | target (handleVariable : String)
  | malformed (fault : RequestFault)

inductive Code where
  | literal (literal : Literal)
  | argument (index : Nat)
  | argumentCount
  | this
  | getField (name : String)
  | setField (name : String) (value : Code)
  | sequence (items : List Code)
  | callThis (method : String) (args : List Code)
  | callOn (target : Code) (method : String) (args : List Code)
  | raise (text : String)
  | deny (text : String)
  | add (left right : Code)
  | choose (condition yes no : Code)
  | length (array : Code)
  | element (array : Code) (index : Nat)
  | storeElement (array : Code) (index : Nat) (value : Code)
  | newArray (component : TypeRef) (elements : List Code)
  | newObject (cls : TypeRef) (args : List Code)
  | log (value : Code)
  | invalid

/-- What a method runs: code, or one of the three answers every object gives about its identity. -/
inductive Body where
  | code (code : Code)
  | identityEquals
  | identityHash
  | identityText

end Interop
