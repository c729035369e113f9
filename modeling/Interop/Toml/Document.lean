import Interop.Toml.Scan

/-!
Whole TOML documents: values with nested arrays and tables, and the lines of a document.
-/
namespace Interop.Toml

mutual

/-- A value. The fuel bounds the number of steps; `depth` is the nesting that is left. -/
def value : (fuel : Nat) → (depth : Nat) → Scanner Value
  | 0, _, _ => none
  | fuel + 1, depth, cs =>
    match cs with
    | '"' :: _ | '\'' :: _ => do
      let (found, rest) ← text cs
      return (.string found, rest)
    | '[' :: rest =>
      match depth with
      | 0 => none
      | depth + 1 => do
        let (items, rest) ← arrayItems fuel depth rest
        return (.array items, rest)
    | '{' :: rest =>
      match depth with
      | 0 => none
      | depth + 1 =>
        match skipBlanks rest with
        | '}' :: rest => some (.table [], rest)
        | rest => do
          let (node, rest) ← braceEntries fuel depth .empty rest
          return (.table node.finish, rest)
    | _ =>
      let (found, rest) := word cs
      match wordValue? found with
      | some value => some (value, rest)
      | none => none

/-- The items of an array after its opening bracket. A comma may follow the last. -/
def arrayItems : (fuel : Nat) → (depth : Nat) → Scanner (List Value)
  | 0, _, _ => none
  | fuel + 1, depth, cs =>
    match skipLines cs.length cs with
    | ']' :: rest => some ([], rest)
    | cs => do
      let (first, rest) ← value fuel depth cs
      match skipLines rest.length rest with
      | ',' :: rest =>
        let (others, rest) ← arrayItems fuel depth rest
        return (first :: others, rest)
      | ']' :: rest => return ([first], rest)
      | _ => none

/-- The entries of a table in braces, all on one line. -/
def braceEntries : (fuel : Nat) → (depth : Nat) → Node → Scanner Node
  | 0, _, _, _ => none
  | fuel + 1, depth, node, cs => do
    let (path, rest) ← key cs
    match rest with
    | '=' :: rest =>
      let (found, rest) ← value fuel depth (skipBlanks rest)
      let name ← path.getLast?
      let node ← node.addValue path.dropLast name found
      match skipBlanks rest with
      | ',' :: rest => braceEntries fuel depth node rest
      | '}' :: rest => return (node, rest)
      | _ => none
    | _ => none

end

/-- A document as far as it has been read: the finished part, and the table that the last header has
opened. -/
structure Reading where
  root : Node
  current : Node
  path : List String
  isArray : Bool

def Reading.start : Reading := ⟨.empty, .empty, [], false⟩

/-- Puts the open table in its place. -/
def Reading.close (reading : Reading) : Option Node :=
  match reading.path.getLast? with
  | none => some reading.current
  | some name =>
    reading.root.change false (fun parent =>
      if reading.isArray then
        match parent.get? name with
        | none => some (parent.put name (.tables [reading.current]))
        | some (.tables nodes) => some (parent.put name (.tables (nodes ++ [reading.current])))
        | some _ => none
      else
        match parent.get? name with
        | none => some (parent.put name (.table reading.current))
        | some (.table old) => if old.isImplicit then some (parent.put name (.table reading.current)) else none
        | some _ => none) reading.path.dropLast

/-- The table that a path names below its last part, without making anything. -/
def parentOf? : (path : List String) → Node → Option Node
  | [], node => some node
  | key :: path, node =>
    match node.get? key with
    | some (.table inner) => parentOf? path inner
    | some (.tables nodes) => nodes.getLast?.bind (parentOf? path)
    | _ => none

/-- Opens the table of a header. A table that was only implied so far is taken up with its entries. -/
def Reading.openTable (reading : Reading) (path : List String) : Option Reading := do
  let root ← reading.close
  let name ← path.getLast?
  let root ← root.change false some path.dropLast
  let existing := (parentOf? path.dropLast root).bind (fun parent => parent.get? name)
  match existing with
  | none => return ⟨root, .empty, path, false⟩
  | some (.table old) =>
    if old.isImplicit && !old.dotted then
      let root ← root.change false (fun parent => some (parent.remove name)) path.dropLast
      return ⟨root, .mk old.entries false false, path, false⟩
    else none
  | some _ => none

/-- Opens a further table of an array of tables. -/
def Reading.openArrayTable (reading : Reading) (path : List String) : Option Reading := do
  let root ← reading.close
  let name ← path.getLast?
  let root ← root.change false some path.dropLast
  match (parentOf? path.dropLast root).bind (fun parent => parent.get? name) with
  | none | some (.tables _) => return ⟨root, .empty, path, true⟩
  | some _ => none

/-- One line with something on it: a header, or a key with its value. -/
def line (reading : Reading) (cs : List Char) : Option (Reading × List Char) :=
  match cs with
  | '[' :: '[' :: rest => do
    let (path, rest) ← key rest
    match rest with
    | ']' :: ']' :: rest =>
      let rest ← restOfLine rest
      return (← reading.openArrayTable path, rest)
    | _ => none
  | '[' :: rest => do
    let (path, rest) ← key rest
    match rest with
    | ']' :: rest =>
      let rest ← restOfLine rest
      return (← reading.openTable path, rest)
    | _ => none
  | cs => do
    let (path, rest) ← key cs
    match rest with
    | '=' :: rest =>
      let (found, rest) ← value (rest.length + 1) (nestingLimit - 1) (skipBlanks rest)
      let rest ← restOfLine rest
      let name ← path.getLast?
      let current ← reading.current.addValue path.dropLast name found
      return ({ reading with current := current }, rest)
    | _ => none

/-- The lines of a document. Every line has a character at least. -/
def lines : (fuel : Nat) → Reading → List Char → Option Reading
  | 0, _, _ => none
  | fuel + 1, reading, cs =>
    match skipBlanks cs with
    | [] => some reading
    | '\n' :: rest => lines fuel reading rest
    | '\r' :: '\n' :: rest => lines fuel reading rest
    | '#' :: rest => do
      let rest ← lineEnd (rest.dropWhile isPlain)
      lines fuel reading rest
    | cs => do
      let (reading, rest) ← line reading cs
      lines fuel reading rest

/-- A byte order mark may stand before a document. -/
def skipMark : List Char → List Char
  | '\ufeff' :: rest => rest
  | cs => cs

/-- The entries of a document. The document itself never stands for a date-time. -/
def parse? (document : String) : Option (List (String × Value)) := do
  let cs := skipMark document.toList
  let reading ← lines (cs.length + 1) .start cs
  let root ← reading.close
  resolveEntries? root.finish

end Interop.Toml
