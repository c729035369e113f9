import Interop.Eval.Literal
import Interop.Proxy

/-!
Evaluation of script code. Every expression is a scope: the handles of its operands live until it
has its value.
-/
namespace Interop.Eval

/-- What a running script function can see. -/
structure ScriptFrame where
  this : ScriptValue
  args : List ScriptValue

/-- The sum of two values, by the rule of native code. -/
def scriptSum? (a b : ScriptValue) : Option ScriptValue :=
  match a.integer?, b.integer? with
  | some x, some y => some (.int (x + y).toInt32)
  | _, _ =>
    match a.number?, b.number? with
    | some x, some y => some (.double (x + y))
    | _, _ =>
      match a.string?, b.string? with
      | some x, some y => some (.string (x ++ y))
      | _, _ => none

def requireProxy (value : ScriptValue) : Except BridgeError Proxy :=
  match value.proxy? with
  | some proxy => .ok proxy
  | none => .error (.invalidArgument .notHandle)

def requireInstance (value : ScriptValue) : Except BridgeError HandleId :=
  match value.instance? with
  | some id => .ok id
  | none => .error (.invalidArgument .notHandle)

def requireClass (w : World) (value : ScriptValue) : Except BridgeError ClassHandle :=
  match value.class?.bind w.class? with
  | some handle => .ok handle
  | none => .error (.invalidArgument .notHandle)

mutual

def script (run : Runner) (frame : ScriptFrame) : ScriptCode → Task BridgeError ScriptValue
  | .literal l => Task.scopedValue do
    Task.mapError (fun e => .invalidArgument (.other e.message)) (scriptLiteral l)
  | .this => Task.scopedValue (return frame.this)
  | .argument index => Task.scopedValue (return (frame.args[index]?).getD .null)
  | .arguments => Task.scopedValue (return .array frame.args)
  | .argumentCount => return .int (Int32.ofNat frame.args.length)
  | .sequence items => Task.scopedValue do
    let values ← scripts run frame items
    return values.getLast?.getD .null
  | .call target method args onInstance => Task.scopedValue do
    let target ← script run frame target
    let args ← scripts run frame args
    let proxy ← Task.ofExcept (requireProxy target)
    proxy.call run { method, args, onInstance }
  | .getField target name => Task.scopedValue do
    let target ← script run frame target
    let proxy ← Task.ofExcept (requireProxy target)
    proxy.getField name
  | .setField target name value => Task.scopedValue do
    let target ← script run frame target
    let value ← script run frame value
    let proxy ← Task.ofExcept (requireProxy target)
    proxy.setField name value
    return .null
  | .superView target => Task.scopedValue do
    let target ← script run frame target
    let id ← Task.ofExcept (requireInstance target)
    return .instance (← Task.superView id)
  | .newInstance cls args => Task.scopedValue do
    let cls ← script run frame cls
    let args ← scripts run frame args
    let handle ← Task.ofExcept (requireClass (← get) cls)
    return .instance (← handle.newInstance run args)
  | .setOverrides target overrides => Task.scopedValue do
    let target ← script run frame target
    let overrides ← script run frame overrides
    let id ← Task.ofExcept (requireInstance target)
    id.setOverrides overrides
    return .null
  | .add left right => Task.scopedValue do
    let left ← script run frame left
    let right ← script run frame right
    match scriptSum? left right with
    | some value => return value
    | none => throw (.invalidArgument .cannotAdd)
  | .save name value => Task.scopedValue do
    let value ← script run frame value
    modify (fun w => w.setVariable name value)
    return value
  | .log value => Task.scopedValue do
    let value ← script run frame value
    Task.logEntry (.script ((← get).scriptPicture value))
    return .null
  | .fail error => throw error
  | .invalid => throw (.invalidArgument .badExpression)

def scripts (run : Runner) (frame : ScriptFrame) : List ScriptCode → Task BridgeError (List ScriptValue)
  | [] => return []
  | first :: rest => do
    let value ← script run frame first
    let values ← scripts run frame rest
    return value :: values

end

end Interop.Eval
