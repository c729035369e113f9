import Interop.Request
import Interop.Script.Error
import Interop.Script.Value

/-!
Script code: literals and the expressions that script functions are made of.
-/
namespace Interop

mutual

/-- A script value as it is written down. A function literal makes a new function each time it is
evaluated. -/
inductive ScriptLiteral where
  | value (value : ScriptValue)
  | array (items : List ScriptLiteral)
  | dict (entries : List (String × ScriptLiteral))
  | function (body : ScriptCode)
  | var (name : String)
  | malformed (fault : RequestFault)

inductive ScriptCode where
  | literal (literal : ScriptLiteral)
  | this
  | argument (index : Nat)
  | arguments
  | argumentCount
  | sequence (items : List ScriptCode)
  | call (target : ScriptCode) (method : String) (args : List ScriptCode) (onInstance : Bool)
  | getField (target : ScriptCode) (name : String)
  | setField (target : ScriptCode) (name : String) (value : ScriptCode)
  | superView (target : ScriptCode)
  | newInstance (cls : ScriptCode) (args : List ScriptCode)
  | setOverrides (target overrides : ScriptCode)
  | add (left right : ScriptCode)
  | save (name : String) (value : ScriptCode)
  | log (value : ScriptCode)
  | fail (error : BridgeError)
  | invalid

end

end Interop
