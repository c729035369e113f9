import Interop.Text.Units
import Interop.World

/-!
From native to script. Characters become text, bytes widen, arrays of primitives become typed arrays,
and every other object is wrapped in its handle.
-/
namespace Interop.Marshal

/-- The script form of an array of primitives. -/
def typedArray (kind : PrimitiveKind) (elements : List Value) : ScriptValue :=
  match kind with
  | .char => .string (Text.ofUnits (elements.filterMap fun | .char v => some v | _ => none))
  | .boolean => .typedArray (.boolean (elements.filterMap fun | .boolean v => some v | _ => none))
  | .byte => .typedArray (.short (elements.filterMap fun | .byte v => some v.toInt16 | _ => none))
  | .short => .typedArray (.short (elements.filterMap fun | .short v => some v | _ => none))
  | .int => .typedArray (.int (elements.filterMap fun | .int v => some v | _ => none))
  | .long => .typedArray (.long (elements.filterMap fun | .long v => some v | _ => none))
  | .float => .typedArray (.float (elements.filterMap fun | .float v => some v | _ => none))
  | .double => .typedArray (.double (elements.filterMap fun | .double v => some v | _ => none))
  | .void => .null

/-- The primitive kind of the elements of an array class. -/
def elementKind? (r : Registry) (cls : TypeId) : Option PrimitiveKind :=
  (r.component? cls).bind r.primitiveKind?

/-- The script value of a native value. The running scope holds the handle of an object. -/
def toScript {ε : Type} : Value → Task ε ScriptValue
  | .null | .void => return .null
  | .boolean v => return .boolean v
  | .byte v => return .short v.toInt16
  | .short v => return .short v
  | .char v => return .string (Text.ofUnits [v])
  | .int v => return .int v
  | .long v => return .long v
  | .float v => return .float v
  | .double v => return .double v
  | .string v => return .string v
  | .object ref => do
    let w ← get
    match elementKind? w.registry ref.cls with
    | some kind => return typedArray kind (w.heap.elements ref)
    | none => return .instance (← Task.wrapObject ref)

def toScriptAll {ε : Type} : List Value → Task ε (List ScriptValue)
  | [] => return []
  | value :: rest => do
    let first ← toScript value
    let others ← toScriptAll rest
    return first :: others

end Interop.Marshal
