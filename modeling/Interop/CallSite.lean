import Interop.Script.Error
import Interop.Script.Value

/-!
What script code passes along with a call: the name of a method with its arguments, the overrides of
a new instance, and dictionaries that stand for argument lists.
-/
namespace Interop

structure CallSite where
  method : String
  args : List ScriptValue
  /-- Whether the receiver takes part; a static call leaves it out. -/
  onInstance : Bool

/-- Reads a call from a dictionary with the keys `func`, `args` and `instanceMethod`, of which only
the first is needed. -/
def CallSite.ofValue (value : ScriptValue) : Except BridgeError CallSite := do
  let entries ←
    match value.dict? with
    | some entries => pure entries
    | none => throw (.invalidArgument (.descriptorNotDictionary value.typeName))
  let method ←
    match (entries.lookup "func").bind ScriptValue.string? with
    | some name => pure name
    | none => throw (.invalidArgument .descriptorWithoutFunction)
  let args ←
    match entries.lookup "args" with
    | none | some .null => pure []
    | some (.array items) => pure items
    | some other => throw (.invalidArgument (.descriptorArguments other.typeName))
  let onInstance ←
    match entries.lookup "instanceMethod" with
    | none | some .null => pure true
    | some (.boolean flag) => pure flag
    | some other => throw (.invalidArgument (.descriptorInstance other.typeName))
  return { method, args, onInstance }

/-- Reads overrides from the entries of a dictionary, which must all be functions. -/
def readOverrides : List (String × ScriptValue) → Except BridgeError (List (String × FunctionId))
  | [] => .ok []
  | (name, .function id) :: rest => do
    let others ← readOverrides rest
    return (name, id) :: others
  | (name, other) :: _ => .error (.invalidArgument (.overrideNotFunction name other.typeName))

/-- Argument lists are shorter than this. -/
def maxParameters : Nat := 255

/-- An index written in decimal digits, which a plus sign may precede. -/
def parseIndex? (text : String) : Option Nat :=
  let digits :=
    match text.toList with
    | '+' :: rest => rest
    | chars => chars
  if digits.isEmpty || !digits.all Char.isDigit then none
  else
    let index := digits.foldl (fun n c => 10 * n + (c.toNat - '0'.toNat)) 0
    if index < maxParameters then some index else none

/-- The entries with their keys read as indices, if all can be. -/
def indexEntries? : List (String × ScriptValue) → Option (List (Nat × ScriptValue))
  | [] => some []
  | (key, value) :: rest => do
    let index ← parseIndex? key
    let others ← indexEntries? rest
    return (index, value) :: others

/-- Puts every value at its index, over nulls; of one index the last value stays. -/
def spread (entries : List (Nat × ScriptValue)) : List ScriptValue :=
  let length := entries.foldl (fun length (index, _) => max length (index + 1)) 0
  entries.foldl (fun args (index, value) => args.set index value) (List.replicate length .null)

/-- A single dictionary whose keys are all indices stands for the list of its values. -/
def positionalArguments : List ScriptValue → List ScriptValue
  | [.dict entries] =>
    match indexEntries? entries with
    | some indexed => spread indexed
    | none => [.dict entries]
  | args => args

end Interop
