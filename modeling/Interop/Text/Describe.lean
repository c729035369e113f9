/-!
The common layout of descriptions: records, lists, maps and optional values.
-/
namespace Interop.Text

def commaSeparated (items : List String) : String := String.intercalate ", " items

/-- Items between square brackets. -/
def listText (items : List String) : String := "[" ++ commaSeparated items ++ "]"

def mapText (entries : List (String × String)) : String :=
  "\x7b" ++ commaSeparated (entries.map fun (key, value) => key ++ ": " ++ value) ++ "\x7d"

/-- A named record with its fields in order. -/
def recordText (name : String) (fields : List (String × String)) : String :=
  name ++ " \x7b " ++ commaSeparated (fields.map fun (field, value) => field ++ ": " ++ value) ++ " \x7d"

def boolText (flag : Bool) : String := if flag then "true" else "false"

def optionText {α : Type} (text : α → String) : Option α → String
  | some value => "Some(" ++ text value ++ ")"
  | none => "None"

end Interop.Text
