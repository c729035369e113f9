import Interop.Toml.Datetime

/-!
Documents in TOML: values, and the tables under construction while a document is read.

A table under construction remembers how it came to be. A table that only occurs on the way to
another is implicit and may still be given by a header; a table made by a dotted key is dotted and
takes further dotted keys only.
-/
namespace Interop.Toml

inductive Value where
  | string (text : String)
  | integer (value : Int)
  | float
  | boolean (value : Bool)
  | datetime
  | array (items : List Value)
  | table (entries : List (String × Value))

/-- The reserved name: a table whose first entry bears it stands for the date-time of that entry. -/
def datetimeName : String := "$__toml_private_datetime"

mutual

/-- Reads the tables that stand for date-times. There the first entry must be the text of one, and
the other entries do not matter. -/
def Value.resolve? : Value → Option Value
  | .array items => (resolveItems? items).map .array
  | .table [] => some (.table [])
  | .table ((name, first) :: rest) =>
    if name = datetimeName then
      match first with
      | .string text => if Datetime.isWritten text.toList then some .datetime else none
      | _ => none
    else do
      let first ← first.resolve?
      let rest ← resolveEntries? rest
      return .table ((name, first) :: rest)
  | value => some value

def resolveItems? : List Value → Option (List Value)
  | [] => some []
  | item :: rest => do
    let item ← item.resolve?
    let rest ← resolveItems? rest
    return item :: rest

/-- Reads the values of entries, whatever their names. -/
def resolveEntries? : List (String × Value) → Option (List (String × Value))
  | [] => some []
  | (name, value) :: rest => do
    let value ← value.resolve?
    let rest ← resolveEntries? rest
    return (name, value) :: rest

end

mutual

inductive Item where
  | value (value : Value)
  | table (node : Node)
  | tables (nodes : List Node)

inductive Node where
  | mk (entries : List (String × Item)) (isImplicit : Bool) (dotted : Bool)

end

namespace Node

def entries : Node → List (String × Item)
  | mk entries _ _ => entries

def isImplicit : Node → Bool
  | mk _ isImplicit _ => isImplicit

def dotted : Node → Bool
  | mk _ _ dotted => dotted

/-- A table without entries that a header or the document itself gives. -/
def empty : Node := mk [] false false

def get? (node : Node) (key : String) : Option Item := node.entries.lookup key

/-- Sets an entry, in its place if it is there. -/
def put (node : Node) (key : String) (item : Item) : Node :=
  let entries :=
    if (node.get? key).isSome then
      node.entries.map (fun entry => if entry.1 == key then (key, item) else entry)
    else node.entries ++ [(key, item)]
  mk entries node.isImplicit node.dotted

def remove (node : Node) (key : String) : Node :=
  mk (node.entries.filter (fun entry => entry.1 != key)) node.isImplicit node.dotted

/-- Changes the table at the end of a path. Tables that are missing on the way are made; of an array
of tables the last is meant. A dotted key does not enter a table that a header has given. -/
def change (dottedKey : Bool) (final : Node → Option Node) : (path : List String) → Node → Option Node
  | [], node => final node
  | key :: path, node =>
    match node.get? key with
    | none => do
      let inner ← change dottedKey final path (mk [] true dottedKey)
      return node.put key (.table inner)
    | some (.table inner) =>
      if dottedKey && !inner.isImplicit then none
      else do
        let inner ← change dottedKey final path inner
        return node.put key (.table inner)
    | some (.tables nodes) =>
      match nodes.getLast? with
      | none => none
      | some last => do
        let last ← change dottedKey final path last
        return node.put key (.tables (nodes.dropLast ++ [last]))
    | some (.value _) => none

/-- Adds a key with its value; `path` holds the parts of a dotted key before the last. -/
def addValue (node : Node) (path : List String) (key : String) (value : Value) : Option Node :=
  node.change true (fun table =>
    if table.dotted == path.isEmpty || (table.get? key).isSome then none
    else some (table.put key (.value value))) path

end Node

mutual

/-- The finished value of an item. -/
def Item.finish : Item → Value
  | .value value => value
  | .table node => .table node.finish
  | .tables nodes => .array (finishAll nodes)

def Node.finish : Node → List (String × Value)
  | .mk entries _ _ => finishEntries entries

def finishEntries : List (String × Item) → List (String × Value)
  | [] => []
  | (key, item) :: rest => (key, item.finish) :: finishEntries rest

def finishAll : List Node → List Value
  | [] => []
  | node :: rest => .table node.finish :: finishAll rest

end

end Interop.Toml
