import Interop.Eval.Literal
import Interop.Invoke

/-!
Evaluation of native code. Operands are evaluated from left to right, and a failure ends it at once.
-/
namespace Interop.Eval

/-- The sum of two values: whole numbers wrap around in 64 bits and are cut to 32, other numbers add
as doubles, and texts are joined. -/
def sum? (a b : Value) : Option Value :=
  match a.integer?, b.integer? with
  | some x, some y => some (.int (x + y).toInt32)
  | _, _ =>
    match a.number?, b.number? with
    | some x, some y => some (.double (x + y))
    | _, _ =>
      match a.string?, b.string? with
      | some x, some y => some (.string (x ++ y))
      | _, _ => none

def requireObject : Value → Except NativeError ObjectRef
  | .object ref => .ok ref
  | _ => .error (.thrown "not an object")

/-- Makes an object with the first reachable constructor that has the right number of parameters. -/
def newObject (run : Runner) (cls : TypeId) (args : List Value) : Task NativeError Value := do
  let w ← get
  match (w.registry.constructors cls).find? (fun c => c.params.length == args.length) with
  | some c => return .object (← Invoke.construct run c args none)
  | none => throw (.thrown "no constructor")

def requireType (ref : TypeRef) : Task NativeError TypeId := do
  match ← typeRef? ref with
  | some id => return id
  | none => throw (.thrown "no type")

mutual

def code (run : Runner) (frame : Frame) : Code → Task NativeError Value
  | .literal l => Task.mapError (fun e => .thrown e.message) (literal l)
  | .argument index => Task.ofExcept (frame.argument index)
  | .argumentCount => return .int (Int32.ofNat frame.args.length)
  | .this => do return .object (← Task.ofExcept frame.this)
  | .getField name => do
    let this ← Task.ofExcept frame.this
    match (← get).heap.field? this name with
    | some value => return value
    | none => throw (.noSuchMember name)
  | .setField name value => do
    let value ← code run frame value
    let this ← Task.ofExcept frame.this
    let w ← get
    match w.heap.setField? this name value with
    | some heap =>
      set { w with heap := heap }
      return .void
    | none => throw (.noSuchMember name)
  | .sequence items => do
    let values ← codes run frame items
    return values.getLast?.getD .void
  | .callThis method args => do
    let args ← codes run frame args
    let this ← Task.ofExcept frame.this
    Invoke.invokeVirtual run this method args
  | .callOn target method args => do
    let target ← code run frame target
    let args ← codes run frame args
    match target with
    | .object object => Invoke.invokeVirtual run object method args
    | _ => throw (.nullReceiver method)
  | .raise text => throw (.thrown text)
  | .deny text => throw (.illegalAccess text)
  | .add left right => do
    let left ← code run frame left
    let right ← code run frame right
    match sum? left right with
    | some value => return value
    | none => throw (.thrown "cannot add")
  | .choose condition yes no => do
    let condition ← code run frame condition
    if condition.boolean? = some true then code run frame yes else code run frame no
  | .length array => do
    let array ← code run frame array
    let object ← Task.ofExcept (requireObject array)
    return .int (Int32.ofNat ((← get).heap.elements object).length)
  | .element array index => do
    let array ← code run frame array
    let object ← Task.ofExcept (requireObject array)
    match (← get).heap.element? object index with
    | some value => return value
    | none => throw (.thrown "no element")
  | .storeElement array index value => do
    let array ← code run frame array
    let object ← Task.ofExcept (requireObject array)
    let value ← code run frame value
    Invoke.storeElement object index value
    return .void
  | .newArray component elements => do
    let component ← requireType component
    let elements ← codes run frame elements
    return .object (← Marshal.newArray component elements)
  | .newObject cls args => do
    let cls ← requireType cls
    let args ← codes run frame args
    newObject run cls args
  | .log value => do
    let value ← code run frame value
    Task.logEntry (.native ((← get).picture value))
    return .void
  | .invalid => throw (.thrown "bad expression")

def codes (run : Runner) (frame : Frame) : List Code → Task NativeError (List Value)
  | [] => return []
  | first :: rest => do
    let value ← code run frame first
    let values ← codes run frame rest
    return value :: values

end

end Interop.Eval
