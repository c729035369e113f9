import Interop.Json.Basic

/-!
JSON text with two blanks of indentation for every level.
-/
namespace Interop.Json

/-- A line end and the indentation of a level. -/
def newLine (level : Nat) : List Char := '\n' :: List.replicate (2 * level) ' '

/-- A character inside quotes. Controls are escaped, by a letter where there is one. -/
def writeChar (c : Char) : List Char :=
  if c = '"' then ['\\', '"']
  else if c = '\\' then ['\\', '\\']
  else if c = '\x08' then ['\\', 'b']
  else if c = '\x0c' then ['\\', 'f']
  else if c = '\n' then ['\\', 'n']
  else if c = '\r' then ['\\', 'r']
  else if c = '\t' then ['\\', 't']
  else if c.toNat < 0x20 then
    ['\\', 'u', '0', '0', Nat.digitChar (c.toNat / 16), Nat.digitChar (c.toNat % 16)]
  else [c]

def writeText (text : List Char) : List Char := '"' :: text.flatMap writeChar ++ ['"']

/-- A text without characters is written as the empty one. -/
def writeString (text : Option String) : List Char := writeText (text.getD "").toList

mutual

def write (level : Nat) : Json → List Char
  | .null => ['n', 'u', 'l', 'l']
  | .boolean true => ['t', 'r', 'u', 'e']
  | .boolean false => ['f', 'a', 'l', 's', 'e']
  | .number digits => digits.toList
  | .string text => writeString text
  | .array [] => ['[', ']']
  | .array (item :: items) =>
    '[' :: newLine (level + 1) ++ write (level + 1) item ++ writeItems (level + 1) items ++
      newLine level ++ [']']
  | .object [] => ['{', '}']
  | .object ((key, value) :: members) =>
    '{' :: newLine (level + 1) ++ writeString key ++ [':', ' '] ++ write (level + 1) value ++
      writeMembers (level + 1) members ++ newLine level ++ ['}']

/-- The items of an array after the first. -/
def writeItems (level : Nat) : List Json → List Char
  | [] => []
  | item :: items => ',' :: newLine level ++ write level item ++ writeItems level items

/-- The members of an object after the first. -/
def writeMembers (level : Nat) : List (Option String × Json) → List Char
  | [] => []
  | (key, value) :: members =>
    ',' :: newLine level ++ writeString key ++ [':', ' '] ++ write level value ++
      writeMembers level members

end

/-- The text of a document. -/
def render (value : Json) : String := String.ofList (write 0 value)

end Interop.Json
