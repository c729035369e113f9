import Interop.Text.Units
import Interop.World

/-!
From script to native. A script value is first unwrapped into the native value it stands for, and
then converted to the declared type of the parameter, field or result it goes to.
-/
namespace Interop.Marshal

/-- Allocates an array of `component` with the given elements. -/
def newArray (component : TypeId) (elements : List Value) : Task NativeError ObjectRef := do
  let array ← Task.onRegistry (Registry.arrayOf component)
  let w ← get
  Task.ofExcept (w.registry.checkElements component 0 elements)
  let (ref, heap) := w.heap.alloc { cls := array, contents := .elements elements, handler := none }
  set { w with heap := heap }
  return ref

/-- The same, where a refusal is a failure to marshal. -/
def marshalArray (component : TypeId) (elements : List Value) : Task BridgeError Value :=
  Task.mapError (fun e => .marshal (.array e)) do
    return .object (← newArray component elements)

/-- The component type and elements of a typed array. -/
def typedElements : TypedArray → PrimitiveKind × List Value
  | .boolean items => (.boolean, items.map Value.boolean)
  | .short items => (.short, items.map Value.short)
  | .int items => (.int, items.map Value.int)
  | .long items => (.long, items.map Value.long)
  | .float items => (.float, items.map Value.float)
  | .double items => (.double, items.map Value.double)

mutual

/-- The native value that a script value stands for. Handles give up their object, and an array
becomes an array of the root class. -/
def unwrap : ScriptValue → Task BridgeError Value
  | .null => return .null
  | .boolean v => return .boolean v
  | .short v => return .short v
  | .int v => return .int v
  | .long v => return .long v
  | .float v => return .float v
  | .double v => return .double v
  | .string v => return .string v
  | .instance id => do
    match (← get).handle? id with
    | some handle => return .object handle.target
    | none => return .null
  | .array items => do
    let elements ← unwrapAll items
    marshalArray .object elements
  | .typedArray items =>
    let (kind, elements) := typedElements items
    marshalArray (.primitive kind) elements
  | .cls id => do throw (.marshal (.classProxy ((← get).className id)))
  | .dict _ => throw (.marshal (.noCounterpart "dictionary"))
  | .function _ => throw (.marshal (.noCounterpart "function"))

def unwrapAll : List ScriptValue → Task BridgeError (List Value)
  | [] => return []
  | value :: rest => do
    let first ← unwrap value
    let others ← unwrapAll rest
    return first :: others

end

/-- A number as whole or floating. -/
inductive Numeric where
  | whole (value : Int64)
  | floating (value : Float)

def Numeric.of? : Value → Option Numeric
  | .float v => some (.floating v.toFloat)
  | .double v => some (.floating v)
  | other => other.integer?.map .whole

/-- A number of the given kind: whole numbers lose their high bits, floating ones stop at the bounds
of 32 or 64 bits first. -/
def Numeric.toKind? : Numeric → PrimitiveKind → Option Value
  | .whole v, .byte => some (.byte v.toInt8)
  | .floating v, .byte => some (.byte v.toInt32.toInt8)
  | .whole v, .short => some (.short v.toInt16)
  | .floating v, .short => some (.short v.toInt32.toInt16)
  | .whole v, .int => some (.int v.toInt32)
  | .floating v, .int => some (.int v.toInt32)
  | .whole v, .long => some (.long v)
  | .floating v, .long => some (.long v.toInt64)
  | .whole v, .float => some (.float v.toFloat32)
  | .floating v, .float => some (.float v.toFloat32)
  | .whole v, .double => some (.double v.toFloat)
  | .floating v, .double => some (.double v)
  | _, _ => none

/-- A character: a text of one unit, or a whole number in the range of units. -/
def charOf? : Value → Option Value
  | .char unit => some (.char unit)
  | .string text =>
    match Text.units text with
    | [unit] => some (.char unit)
    | _ => none
  | other =>
    match other.integer? with
    | some code =>
      if 0 ≤ code.toInt && code.toInt < 65536 then some (.char code.toInt.toNat.toUInt16) else none
    | none => none

def toPrimitive? (value : Value) : PrimitiveKind → Option Value
  | .boolean => value.boolean?.map Value.boolean
  | .char => charOf? value
  | .void => none
  | kind => (Numeric.of? value).bind (fun n => n.toKind? kind)

def mismatch (r : Registry) (value : Value) (target : TypeId) : BridgeError :=
  .marshal (.mismatch value.describe (r.typeName target))

/-- Converts each value in turn. -/
def convertEach (convert : Value → Task BridgeError Value) : List Value → Task BridgeError (List Value)
  | [] => return []
  | value :: rest => do
    let first ← convert value
    let others ← convertEach convert rest
    return first :: others

/-- Converts to `target`, which is nested over `components`. References pass through unchanged when
the type accepts them; an array of another type is converted element by element, along the rest of
the chain, and a text can become an array of characters. -/
def convertAlong (target : TypeId) : (components : List TypeId) → Value → Task BridgeError Value
  | components, value => do
    let w ← get
    match w.registry.get? target with
    | none => throw (.notFound (.typeId target.text))
    | some type =>
      match type.kind with
      | .primitive kind =>
        match toPrimitive? value kind with
        | some converted => return converted
        | none => throw (mismatch w.registry value target)
      | .cls | .interface =>
        if w.registry.accepts target value then return value
        else throw (mismatch w.registry value target)
      | .array component =>
        match value with
        | .null => return .null
        | .object ref =>
          if ref.cls = target then return value
          else if w.heap.isArray ref then
            match components with
            | [] => throw (mismatch w.registry value target)
            | next :: deeper =>
              let elements ← convertEach (convertAlong next deeper) (w.heap.elements ref)
              marshalArray component elements
          else throw (mismatch w.registry value target)
        | .string text =>
          if w.registry.primitiveKind? component = some .char then
            marshalArray component ((Text.units text).map Value.char)
          else throw (mismatch w.registry value target)
        | _ => throw (mismatch w.registry value target)

/-- Converts a value to a declared type. -/
def convert (value : Value) (target : TypeId) : Task BridgeError Value := do
  let w ← get
  convertAlong target (w.registry.components w.registry.slots.length target) value

/-- Converts arguments to parameters, pair by pair. -/
def convertPairs : List (Value × TypeId) → Task BridgeError (List Value)
  | [] => return []
  | (arg, param) :: rest => do
    let first ← convert arg param
    let others ← convertPairs rest
    return first :: others

/-- Converts the arguments of a member. A variadic member gets the arguments beyond its fixed
parameters as one new array. -/
def convertArguments (args : List Value) (params : List TypeId) (variadic : Bool) :
    Task BridgeError (List Value) := do
  if !variadic then
    if args.length ≠ params.length then
      throw (.invalidArgument (.argumentCount params.length args.length))
    convertPairs (args.zip params)
  else
    match params.getLast? with
    | none => throw (.invalidArgument .variadicWithoutParameters)
    | some last =>
      let fixed := params.dropLast
      if args.length < fixed.length then
        throw (.invalidArgument (.tooFewArguments fixed.length args.length))
      match (← get).registry.component? last with
      | none => throw (.invalidArgument .variadicNotArray)
      | some component =>
        let front ← convertPairs (args.zip fixed)
        let rest ← convertPairs ((args.drop fixed.length).map (fun arg => (arg, component)))
        let packed ← marshalArray component rest
        return front ++ [packed]

end Interop.Marshal
