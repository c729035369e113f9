import Interop.Session.Report

/-!
The written form of reports. Values are tagged with their type; objects, instance handles and class
handles are written as numbers that count from zero in the order in which each kind is first written
in a session.
-/
namespace Interop

/-- The objects, handles and classes written so far, in order. -/
structure Numbers where
  objects : List Nat
  handles : List Nat
  classes : List Nat

namespace Numbers

def none : Numbers := ⟨[], [], []⟩

/-- The number of an identity, which is added if it is new. -/
def position (seen : List Nat) (identity : Nat) : Nat × List Nat :=
  match seen.findIdx? (fun other => other == identity) with
  | some index => (index, seen)
  | Option.none => (seen.length, seen ++ [identity])

end Numbers

abbrev Numbering := StateM Numbers

namespace Numbering

def object (address : Nat) : Numbering Json := fun numbers =>
  let (number, objects) := Numbers.position numbers.objects address
  (.ofNat number, { numbers with objects := objects })

def handle (id : HandleId) : Numbering Json := fun numbers =>
  let (number, handles) := Numbers.position numbers.handles id.index
  (.ofNat number, { numbers with handles := handles })

def cls (id : ClassId) : Numbering Json := fun numbers =>
  let (number, classes) := Numbers.position numbers.classes id.index
  (.ofNat number, { numbers with classes := classes })

end Numbering

namespace Json

/-- A value under the name of its type. -/
def tagged (tag : String) (value : Json) : Json := .ofMembers [(tag, value)]

def long (value : Int64) : Json := .ofString (Decimal.intText value.toInt)
def single (value : Float32) : Json := .ofString (Report.singleBits value)
def double (value : Float) : Json := .ofString (Report.doubleBits value)

end Json

open Json (tagged) in
/-- A native value that is no object. -/
def Value.write : Value → Json
  | .null => .null
  | .void => tagged "void" (.boolean true)
  | .boolean value => .boolean value
  | .byte value => tagged "byte" (.ofInt value.toInt)
  | .short value => tagged "short" (.ofInt value.toInt)
  | .char value => tagged "char" (.ofNat value.toNat)
  | .int value => tagged "int" (.ofInt value.toInt)
  | .long value => tagged "long" (.long value)
  | .float value => tagged "float" (.single value)
  | .double value => tagged "double" (.double value)
  | .string value => .ofString value
  | .object _ => .null

mutual

/-- An array is numbered before its elements. -/
def Picture.write : Picture → Numbering Json
  | .plain value => return value.write
  | .object cls address => do
    let number ← Numbering.object address
    return .ofMembers [("obj", .ofString cls), ("o", number)]
  | .array cls address elements => do
    let number ← Numbering.object address
    let elements ← writePictures elements
    return .ofMembers [("arr", .ofString cls), ("o", number), ("elems", .array elements)]
  | .arrayAgain cls address => do
    let number ← Numbering.object address
    return .ofMembers [("arr", .ofString cls), ("o", number)]

def writePictures : List Picture → Numbering (List Json)
  | [] => return []
  | picture :: rest => do
    let first ← picture.write
    let others ← writePictures rest
    return first :: others

end

def TypedArray.write : TypedArray → Json
  | .boolean items => kindAndItems "boolean" (items.map .boolean)
  | .short items => kindAndItems "short" (items.map (fun x => .ofInt x.toInt))
  | .int items => kindAndItems "int" (items.map (fun x => .ofInt x.toInt))
  | .long items => kindAndItems "long" (items.map .long)
  | .float items => kindAndItems "float" (items.map .single)
  | .double items => kindAndItems "double" (items.map .double)
where
  kindAndItems (kind : String) (items : List Json) : Json :=
    Json.tagged "parr" (.array [.ofString kind, .array items])

open Json (tagged) in
/-- A script value without handles and parts. -/
def ScriptValue.write : ScriptValue → Json
  | .boolean value => .boolean value
  | .short value => tagged "short" (.ofInt value.toInt)
  | .int value => tagged "int" (.ofInt value.toInt)
  | .long value => tagged "long" (.long value)
  | .float value => tagged "float" (.single value)
  | .double value => tagged "double" (.double value)
  | .string value => .ofString value
  | .typedArray items => items.write
  | _ => .null

mutual

/-- A handle is numbered before its object. -/
def ScriptPicture.write : ScriptPicture → Numbering Json
  | .plain value => return value.write
  | .array items => do return .tagged "array" (.array (← writeScriptPictures items))
  | .dict entries => do return .tagged "dict" (.array (← writeEntries entries))
  | .function => return .tagged "fn" (.boolean true)
  | .cls name id => do
    let number ← Numbering.cls id
    return .ofMembers [("class", .ofString name), ("c", number)]
  | .instance name id target => do
    let number ← Numbering.handle id
    let object ← Numbering.object target
    return .ofMembers [("inst", .ofString name), ("h", number), ("o", object)]

def writeScriptPictures : List ScriptPicture → Numbering (List Json)
  | [] => return []
  | picture :: rest => do
    let first ← picture.write
    let others ← writeScriptPictures rest
    return first :: others

def writeEntries : List (String × ScriptPicture) → Numbering (List Json)
  | [] => return []
  | (key, picture) :: rest => do
    let first ← picture.write
    let others ← writeEntries rest
    return .array [.ofString key, first] :: others

end

mutual

def Report.write : Report → Numbering Json
  | .json json => return json
  | .native picture => picture.write
  | .script picture => picture.write
  | .list items => do return .array (← writeReports items)
  | .record fields => do return .ofMembers (← writeFields fields)
  | .hidden report => do
    let _ ← report.write
    return .ofString "#"

def writeReports : List Report → Numbering (List Json)
  | [] => return []
  | report :: rest => do
    let first ← report.write
    let others ← writeReports rest
    return first :: others

def writeFields : List (String × Report) → Numbering (List (String × Json))
  | [] => return []
  | (name, report) :: rest => do
    let first ← report.write
    let others ← writeFields rest
    return (name, first) :: others

end

def LogEntry.write : LogEntry → Numbering Json
  | .native picture => do return .tagged "native" (← picture.write)
  | .script picture => do return .tagged "script" (← picture.write)
  | .handler member => return .tagged "handler" (.ofString member)

def Event.write (event : Event) : Json :=
  let detail : Detail → Json
    | .text text => .ofString text
    | .count count => .ofNat count
  .ofMembers ([("level", .ofString event.level.name), ("message", .ofString event.message)] ++
    event.details.map (fun entry => (entry.1, detail entry.2)))

def isHashDigit (c : Char) : Bool := ('0' ≤ c && c ≤ '9') || ('a' ≤ c && c ≤ 'f')

/-- Replaces the hexadecimal digits after each at sign by one `#`. `afterSign` tells that such a
sign, or a digit that was dropped after it, stands before the characters. -/
def maskHashes : (afterSign : Bool) → (dropped : Bool) → List Char → List Char
  | _, dropped, [] => if dropped then ['#'] else []
  | afterSign, dropped, c :: rest =>
    if afterSign && isHashDigit c then maskHashes true true rest
    else
      let before := if dropped then ['#'] else []
      before ++ c :: maskHashes (c == '@') false rest

mutual

/-- Masks the hashes in all texts, but not in the names of members. -/
def Json.masked : Json → Json
  | .string text => .string (text.map (fun text => String.ofList (maskHashes false false text.toList)))
  | .array items => .array (maskItems items)
  | .object members => .object (maskMembers members)
  | json => json

def maskItems : List Json → List Json
  | [] => []
  | item :: rest => item.masked :: maskItems rest

def maskMembers : List (Option String × Json) → List (Option String × Json)
  | [] => []
  | (key, value) :: rest => (key, value.masked) :: maskMembers rest

end

namespace Session

/-- A session between two steps. -/
structure State where
  world : World
  numbers : Numbers

def start (config : Config) (gate : Gate) : State := ⟨.initial config gate, .none⟩

/-- What a step gives: its answer, the log and the events, as written. -/
structure Outcome where
  answer : Except StepError Json
  log : List Json
  events : List Event

def writeLog : List LogEntry → Numbering (List Json)
  | [] => return []
  | entry :: rest => do
    let first ← entry.write
    let others ← writeLog rest
    return first :: others

/-- Runs one step as a scope of its own. Its log is written before its answer. -/
def perform (step : Task StepError Report) (state : State) : Outcome × State :=
  let written (world : World) (answer : Numbering (Except StepError Json)) : Outcome × State :=
    let (log, numbers) := (writeLog world.log).run state.numbers
    let (answer, numbers) := answer.run numbers
    (⟨answer, log, world.events⟩, ⟨{ world with log := [], events := [] }, numbers⟩)
  match Task.closed step state.world with
  | .ok report world => written world (do return .ok (← report.write))
  | .error e world => written world (return .error e)

end Session

end Interop
