import Interop.Marshal.Inward

/-!
Evaluation of type references and literals.
-/
namespace Interop

/-- Why a request fails. -/
inductive StepError where
  | request (fault : RequestFault)
  | native (error : NativeError)
  | bridge (error : BridgeError)
  deriving DecidableEq, Repr

def StepError.message : StepError → String
  | request fault => fault.message
  | native error => error.message
  | bridge error => error.message

namespace Eval

/-- The array type of `dimensions` dimensions over a type. -/
def arrayOfDimensions : (dimensions : Nat) → TypeId → Task NativeError TypeId
  | 0, id => return id
  | dimensions + 1, id => do
    let array ← Task.onRegistry (Registry.arrayOf id)
    arrayOfDimensions dimensions array

/-- The type of a reference, if there is one. -/
def typeRef? {ε : Type} (ref : TypeRef) : Task ε (Option TypeId) := do
  match ref.text.toList with
  | '@' :: rest =>
    let (name, dimensions) := Registry.splitArrayName (String.ofList rest)
    match (← get).aliases.lookup name with
    | none => return none
    | some id =>
      match ← Task.outcome (arrayOfDimensions dimensions id) with
      | .ok array => return some array
      | .error _ => return none
  | _ => Task.lookupType ref.text

def typeRef (ref : TypeRef) : Task StepError TypeId := do
  match ← typeRef? ref with
  | some id => return id
  | none => throw (.request (.noType ref.text))

/-- The value of a script variable; the running scope holds the handles in it. -/
def readVariable (name : String) : Task StepError ScriptValue := do
  match (← get).scriptVariables.lookup name with
  | some value =>
    modify (fun w => w.hold value)
    return value
  | none => throw (.request (.noVariable name))

def instanceVariable (name : String) : Task StepError HandleId := do
  match (← readVariable name).instance? with
  | some id => return id
  | none => throw (.request .notInstance)

mutual

/-- The value of a literal. An array literal looks up its component before its elements. -/
def literal : Literal → Task StepError Value
  | .value value => return value
  | .array component elements => do
    let component ← typeRef component
    let elements ← literals elements
    let array ← Task.mapError .native (Marshal.newArray component elements)
    return .object array
  | .var name => do
    match (← get).nativeVariables.lookup name with
    | some value => return value
    | none => throw (.request (.noNativeVariable name))
  | .target name => Task.closed do
    let id ← instanceVariable name
    match (← get).handle? id with
    | some handle => return .object handle.target
    | none => throw (.request .notInstance)
  | .malformed fault => throw (.request fault)

def literals : List Literal → Task StepError (List Value)
  | [] => return []
  | first :: rest => do
    let value ← literal first
    let values ← literals rest
    return value :: values

end

mutual

def scriptLiteral : ScriptLiteral → Task StepError ScriptValue
  | .value value => return value
  | .array items => do return .array (← scriptLiterals items)
  | .dict entries => do return ScriptValue.ofEntries (← scriptEntries entries)
  | .function body => do return .function (← Task.addFunction body)
  | .var name => readVariable name
  | .malformed fault => throw (.request fault)

def scriptLiterals : List ScriptLiteral → Task StepError (List ScriptValue)
  | [] => return []
  | first :: rest => do
    let value ← scriptLiteral first
    let values ← scriptLiterals rest
    return value :: values

def scriptEntries : List (String × ScriptLiteral) → Task StepError (List (String × ScriptValue))
  | [] => return []
  | (key, first) :: rest => do
    let value ← scriptLiteral first
    let values ← scriptEntries rest
    return (key, value) :: values

end

end Eval

end Interop
