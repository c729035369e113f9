import Interop.Decimal.Binary
import Interop.Text.Describe
import Interop.Toml.Scan

/-!
Writing TOML: a table under its header, with an entry on each line. Names are written without
quotes and values as single words; what would take more is not written.
-/
namespace Interop.Toml

/-- Integers have sixty-four bits. -/
def isInteger (n : Int) : Bool := -(maxInteger + 1 : Int) ≤ n && n ≤ maxInteger

/-- A value in one word. Of floats and date-times only the kind is known. -/
def Value.word? : Value → Option String
  | .integer n => if isInteger n then some (Decimal.intText n) else none
  | .boolean b => some (Text.boolText b)
  | .string _ | .float | .datetime | .array _ | .table _ => none

/-- A name that stands without quotes. -/
def isBareName (name : String) : Bool := !name.toList.isEmpty && name.toList.all isBareKey

/-- The lines of entries. -/
def writeEntries? : List (String × Value) → Option String
  | [] => some ""
  | (name, value) :: rest => do
    let word ← value.word?
    let lines ← writeEntries? rest
    if isBareName name then return name ++ " = " ++ word ++ "\n" ++ lines else none

/-- The lines of a table. -/
def writeTable? (name : String) (entries : List (String × Value)) : Option String := do
  let lines ← writeEntries? entries
  if isBareName name then return "[" ++ name ++ "]\n" ++ lines else none

end Interop.Toml
