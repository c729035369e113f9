import Interop.Json.Basic
import Interop.Text.Hex

/-!
Reading JSON text. A reader takes characters and gives what it has read with the characters that
are left; the fuel bounds the number of values and is never used up by a text of that length.
-/
namespace Interop.Json

abbrev Reader (α : Type) := List Char → Option (α × List Char)

def isBlank (c : Char) : Bool := c == ' ' || c == '\n' || c == '\t' || c == '\r'

def skipBlanks (cs : List Char) : List Char := cs.dropWhile isBlank

/-- A UTF-16 unit as four hexadecimal digits. -/
def readUnit : Reader Nat
  | a :: b :: c :: d :: rest => do
    let a ← Text.hexDigit? a
    let b ← Text.hexDigit? b
    let c ← Text.hexDigit? c
    let d ← Text.hexDigit? d
    return (((a * 16 + b) * 16 + c) * 16 + d, rest)
  | _ => none

def isLead (unit : Nat) : Bool := 0xd800 ≤ unit && unit < 0xdc00

def isTrail (unit : Nat) : Bool := 0xdc00 ≤ unit && unit < 0xe000

/-- The character of two units that form a pair. -/
def pairChar (lead trail : Nat) : Char :=
  Char.ofNat (0x10000 + (lead - 0xd800) * 0x400 + (trail - 0xdc00))

/-- What follows a backslash and a `u`: one character of one unit or two, or half a pair. -/
def readUnits (cs : List Char) : Option (Option Char × List Char) := do
  let (unit, rest) ← readUnit cs
  if isTrail unit then return (none, rest)
  else if isLead unit then
    match rest with
    | '\\' :: 'u' :: more =>
      let (second, after) ← readUnit more
      if isTrail second then return (some (pairChar unit second), after) else return (none, rest)
    | _ => return (none, rest)
  else return (some (Char.ofNat unit), rest)

/-- What follows a backslash. -/
def readEscape : Reader (Option Char)
  | '"' :: rest => some (some '"', rest)
  | '\\' :: rest => some (some '\\', rest)
  | '/' :: rest => some (some '/', rest)
  | 'b' :: rest => some (some '\x08', rest)
  | 'f' :: rest => some (some '\x0c', rest)
  | 'n' :: rest => some (some '\n', rest)
  | 'r' :: rest => some (some '\r', rest)
  | 't' :: rest => some (some '\t', rest)
  | 'u' :: rest => readUnits rest
  | _ => none

/-- A text after its opening quote, up to and with the closing one. -/
def readText : (fuel : Nat) → Reader (Option (List Char))
  | 0, _ => none
  | _ + 1, [] => none
  | _ + 1, '"' :: rest => some (some [], rest)
  | fuel + 1, '\\' :: rest => do
    let (c, rest) ← readEscape rest
    let (text, rest) ← readText fuel rest
    return ((do return (← c) :: (← text)), rest)
  | fuel + 1, c :: rest =>
    if c.toNat < 0x20 then none
    else do
      let (text, rest) ← readText fuel rest
      return (text.map (c :: ·), rest)

/-- A text in quotes. -/
def readString : Reader (Option String)
  | '"' :: rest => do
    let (text, rest) ← readText (rest.length + 1) rest
    return (text.map String.ofList, rest)
  | _ => none

def digits (cs : List Char) : List Char × List Char := (cs.takeWhile Char.isDigit, cs.dropWhile Char.isDigit)

/-- The digits before the point: a zero stands alone. -/
def readWhole (cs : List Char) : Option (List Char × List Char) :=
  match digits cs with
  | ([], _) => none
  | ('0' :: _ :: _, _) => none
  | found => some found

/-- A fraction, if there is one. -/
def readFraction : Reader (List Char)
  | '.' :: cs =>
    match digits cs with
    | ([], _) => none
    | (found, rest) => some ('.' :: found, rest)
  | cs => some ([], cs)

def readSign : List Char → List Char × List Char
  | '+' :: rest => (['+'], rest)
  | '-' :: rest => (['-'], rest)
  | cs => ([], cs)

/-- An exponent, if there is one. -/
def readExponent (cs : List Char) : Option (List Char × List Char) :=
  match cs with
  | c :: rest =>
    if c = 'e' ∨ c = 'E' then
      let (sign, rest) := readSign rest
      match digits rest with
      | ([], _) => none
      | (found, rest) => some (c :: sign ++ found, rest)
    else some ([], cs)
  | [] => some ([], [])

def readNumber (cs : List Char) : Option (String × List Char) := do
  let (sign, rest) := match cs with
    | '-' :: rest => (['-'], rest)
    | cs => ([], cs)
  let (whole, rest) ← readWhole rest
  let (fraction, rest) ← readFraction rest
  let (exponent, rest) ← readExponent rest
  return (String.ofList (sign ++ whole ++ fraction ++ exponent), rest)

mutual

def readValue : (fuel : Nat) → Reader Json
  | 0, _ => none
  | fuel + 1, cs =>
    match skipBlanks cs with
    | 'n' :: 'u' :: 'l' :: 'l' :: rest => some (.null, rest)
    | 't' :: 'r' :: 'u' :: 'e' :: rest => some (.boolean true, rest)
    | 'f' :: 'a' :: 'l' :: 's' :: 'e' :: rest => some (.boolean false, rest)
    | '"' :: rest => do
      let (text, rest) ← readString ('"' :: rest)
      return (.string text, rest)
    | '[' :: rest =>
      match skipBlanks rest with
      | ']' :: rest => some (.array [], rest)
      | rest => do
        let (items, rest) ← readItems fuel rest
        return (.array items, rest)
    | '{' :: rest =>
      match skipBlanks rest with
      | '}' :: rest => some (.object [], rest)
      | rest => do
        let (members, rest) ← readMembers fuel rest
        return (.object members, rest)
    | cs => do
      let (found, rest) ← readNumber cs
      return (.number found, rest)

/-- One item or more, up to and with the closing bracket. -/
def readItems : (fuel : Nat) → Reader (List Json)
  | 0, _ => none
  | fuel + 1, cs => do
    let (item, rest) ← readValue fuel cs
    match skipBlanks rest with
    | ',' :: rest =>
      let (items, rest) ← readItems fuel rest
      return (item :: items, rest)
    | ']' :: rest => return ([item], rest)
    | _ => none

/-- One member or more, up to and with the closing brace. -/
def readMembers : (fuel : Nat) → Reader (List (Option String × Json))
  | 0, _ => none
  | fuel + 1, cs => do
    let (key, rest) ← readString (skipBlanks cs)
    match skipBlanks rest with
    | ':' :: rest =>
      let (value, rest) ← readValue fuel rest
      match skipBlanks rest with
      | ',' :: rest =>
        let (members, rest) ← readMembers fuel rest
        return ((key, value) :: members, rest)
      | '}' :: rest => return ([(key, value)], rest)
      | _ => none
    | _ => none

end

/-- The value of a whole document; nothing but blanks may follow it. -/
def parse? (document : String) : Option Json := do
  let (value, rest) ← readValue (document.toList.length + 1) document.toList
  if (skipBlanks rest).isEmpty then some value else none

end Interop.Json
