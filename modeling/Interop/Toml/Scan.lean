import Interop.Toml.Datetime
import Interop.Toml.Value

/-!
The words of a TOML document: blanks and comments, texts, keys and numbers.
-/
namespace Interop.Toml

def isBlank (c : Char) : Bool := c == ' ' || c == '\t'

def skipBlanks (cs : List Char) : List Char := cs.dropWhile isBlank

/-- Characters that may stand in comments and texts; no controls but the tab. -/
def isPlain (c : Char) : Bool := c == '\t' || (0x20 ≤ c.toNat && c.toNat != 0x7f)

/-- A comment up to the end of its line. -/
def skipComment : List Char → List Char
  | '#' :: rest => rest.dropWhile isPlain
  | cs => cs

/-- The end of a line, or of the document. -/
def lineEnd : List Char → Option (List Char)
  | [] => some []
  | '\n' :: rest => some rest
  | '\r' :: '\n' :: rest => some rest
  | _ => none

/-- Blanks and a comment, and then the end of the line. -/
def restOfLine (cs : List Char) : Option (List Char) := lineEnd (skipComment (skipBlanks cs))

/-- Blanks, comments and line ends, as they may stand between the items of an array. -/
def skipLines : (fuel : Nat) → List Char → List Char
  | 0, cs => cs
  | fuel + 1, cs =>
    match skipBlanks cs with
    | '\n' :: rest => skipLines fuel rest
    | '\r' :: '\n' :: rest => skipLines fuel rest
    | '#' :: rest => skipLines fuel (rest.dropWhile isPlain)
    | cs => cs

/-- A number of exactly `count` hexadecimal digits. -/
def hexNumber : (count : Nat) → (sofar : Nat) → Scanner Nat
  | 0, sofar, cs => some (sofar, cs)
  | count + 1, sofar, c :: cs => do
    let digit ← Text.hexDigit? c
    hexNumber count (16 * sofar + digit) cs
  | _ + 1, _, [] => none

/-- The character of a code point, if there is one. -/
def codePoint? (n : Nat) : Option Char :=
  if n.isValidChar then some (Char.ofNat n) else none

/-- What follows a backslash. -/
def escape : Scanner Char
  | 'b' :: rest => some ('\x08', rest)
  | 't' :: rest => some ('\t', rest)
  | 'n' :: rest => some ('\n', rest)
  | 'f' :: rest => some ('\x0c', rest)
  | 'r' :: rest => some ('\r', rest)
  | '"' :: rest => some ('"', rest)
  | '\\' :: rest => some ('\\', rest)
  | 'u' :: rest => do
    let (n, rest) ← hexNumber 4 0 rest
    return (← codePoint? n, rest)
  | 'U' :: rest => do
    let (n, rest) ← hexNumber 8 0 rest
    return (← codePoint? n, rest)
  | _ => none

/-- The rest of a text in double quotes. -/
def basicText : (fuel : Nat) → Scanner (List Char)
  | 0, _ => none
  | _ + 1, [] => none
  | _ + 1, '"' :: rest => some ([], rest)
  | fuel + 1, '\\' :: rest => do
    let (c, rest) ← escape rest
    let (text, rest) ← basicText fuel rest
    return (c :: text, rest)
  | fuel + 1, c :: rest =>
    if isPlain c then do
      let (text, rest) ← basicText fuel rest
      return (c :: text, rest)
    else none

/-- The rest of a text in single quotes. -/
def literalText : Scanner (List Char)
  | [] => none
  | '\'' :: rest => some ([], rest)
  | c :: rest =>
    if isPlain c then do
      let (text, rest) ← literalText rest
      return (c :: text, rest)
    else none

/-- The end of a text in three quotes: up to two more quotes belong to the text. -/
def closingQuotes (quote : Char) : Scanner (List Char)
  | a :: b :: c :: d :: e :: rest =>
    if a == quote && b == quote && c == quote then
      if d == quote then
        if e == quote then some ([quote, quote], rest) else some ([quote], e :: rest)
      else some ([], d :: e :: rest)
    else none
  | a :: b :: c :: d :: [] =>
    if a == quote && b == quote && c == quote then
      if d == quote then some ([quote], []) else some ([], [d])
    else none
  | a :: b :: c :: [] => if a == quote && b == quote && c == quote then some ([], []) else none
  | _ => none

/-- Skips blanks and line ends. A return belongs to a line end only before a line feed. -/
def skipBlankLines : List Char → List Char
  | '\n' :: rest => skipBlankLines rest
  | '\r' :: '\n' :: rest => skipBlankLines rest
  | c :: rest => if isBlank c then skipBlankLines rest else c :: rest
  | [] => []

/-- Blanks and line ends after a backslash at the end of a line; there must be a line end. -/
def skipFolded (cs : List Char) : Option (List Char) :=
  match skipBlanks cs with
  | '\n' :: rest => some (skipBlankLines rest)
  | '\r' :: '\n' :: rest => some (skipBlankLines rest)
  | _ => none

/-- The rest of a text in three double quotes. -/
def longBasicText : (fuel : Nat) → Scanner (List Char)
  | 0, _ => none
  | fuel + 1, cs =>
    match closingQuotes '"' cs with
    | some found => some found
    | none =>
      match cs with
      | [] => none
      | '\\' :: rest =>
        match skipFolded rest with
        | some rest => longBasicText fuel rest
        | none => do
          let (c, rest) ← escape rest
          let (text, rest) ← longBasicText fuel rest
          return (c :: text, rest)
      | '\r' :: '\n' :: rest => do
        let (text, rest) ← longBasicText fuel rest
        return ('\n' :: text, rest)
      | c :: rest =>
        if isPlain c || c == '\n' then do
          let (text, rest) ← longBasicText fuel rest
          return (c :: text, rest)
        else none

/-- The rest of a text in three single quotes. -/
def longLiteralText : (fuel : Nat) → Scanner (List Char)
  | 0, _ => none
  | fuel + 1, cs =>
    match closingQuotes '\'' cs with
    | some found => some found
    | none =>
      match cs with
      | [] => none
      | '\r' :: '\n' :: rest => do
        let (text, rest) ← longLiteralText fuel rest
        return ('\n' :: text, rest)
      | c :: rest =>
        if isPlain c || c == '\n' then do
          let (text, rest) ← longLiteralText fuel rest
          return (c :: text, rest)
        else none

/-- A line end right after three opening quotes is not part of the text. -/
def skipFirstLineEnd : List Char → List Char
  | '\n' :: rest => rest
  | '\r' :: '\n' :: rest => rest
  | cs => cs

/-- A text in any of the four quotations. -/
def text : Scanner String
  | '"' :: '"' :: '"' :: rest => do
    let (chars, rest) ← longBasicText (rest.length + 1) (skipFirstLineEnd rest)
    return (String.ofList chars, rest)
  | '\'' :: '\'' :: '\'' :: rest => do
    let (chars, rest) ← longLiteralText (rest.length + 1) (skipFirstLineEnd rest)
    return (String.ofList chars, rest)
  | '"' :: rest => do
    let (chars, rest) ← basicText (rest.length + 1) rest
    return (String.ofList chars, rest)
  | '\'' :: rest => do
    let (chars, rest) ← literalText rest
    return (String.ofList chars, rest)
  | _ => none

def isBareKey (c : Char) : Bool := c.isAlphanum || c == '_' || c == '-'

/-- One part of a key. -/
def keyPart : Scanner String
  | '"' :: rest => do
    let (chars, rest) ← basicText (rest.length + 1) rest
    return (String.ofList chars, rest)
  | '\'' :: rest => do
    let (chars, rest) ← literalText rest
    return (String.ofList chars, rest)
  | cs =>
    match cs.takeWhile isBareKey with
    | [] => none
    | bare => some (String.ofList bare, cs.dropWhile isBareKey)

/-- The parts of a key, with dots between them. Blanks around them are skipped. -/
def keyParts : (fuel : Nat) → Scanner (List String)
  | 0, _ => none
  | fuel + 1, cs => do
    let (first, rest) ← keyPart (skipBlanks cs)
    match skipBlanks rest with
    | '.' :: rest =>
      let (others, rest) ← keyParts fuel rest
      return (first :: others, rest)
    | rest => return ([first], rest)

/-- How deep a document may go: neither the parts of a key nor arrays and braces within each other
may be as many. -/
def nestingLimit : Nat := 80

/-- A key of one or more parts. -/
def key : Scanner (List String) := fun cs => do
  let (path, rest) ← keyParts cs.length cs
  if path.length < nestingLimit then some (path, rest) else none

/-- Whether the characters are digits, with single underscores between them. -/
def isDigits (isDigit : Char → Bool) : List Char → Bool
  | [] => false
  | [c] => isDigit c
  | c :: '_' :: rest => isDigit c && isDigits isDigit rest
  | c :: rest => isDigit c && isDigits isDigit rest

def splitSign : List Char → Bool × List Char
  | '-' :: rest => (true, rest)
  | '+' :: rest => (false, rest)
  | cs => (false, cs)

/-- Decimal digits without a zero in front. -/
def isDecimal : List Char → Bool
  | ['0'] => true
  | '0' :: _ => false
  | cs => isDigits Char.isDigit cs

/-- The greatest integer of a document. -/
def maxInteger : Nat := 9223372036854775807

def radixInteger? (base : Nat) (isDigit : Char → Bool) (cs : List Char) : Option Int :=
  if isDigits isDigit cs && digitsValue base cs ≤ maxInteger then some (digitsValue base cs) else none

/-- An integer: decimal with an optional sign, or hexadecimal, octal or binary. -/
def integer? (word : List Char) : Option Int :=
  match word with
  | '0' :: 'x' :: digits => radixInteger? 16 (fun c => (Text.hexDigit? c).isSome) digits
  | '0' :: 'o' :: digits => radixInteger? 8 (fun c => '0' ≤ c && c ≤ '7') digits
  | '0' :: 'b' :: digits => radixInteger? 2 (fun c => c == '0' || c == '1') digits
  | _ =>
    let (negative, digits) := splitSign word
    if !isDecimal digits then none
    else
      let magnitude := digitsValue 10 digits
      if negative then (if magnitude ≤ maxInteger + 1 then some (-(magnitude : Int)) else none)
      else (if magnitude ≤ maxInteger then some magnitude else none)

/-- An exponent after its mark. -/
def isExponent (cs : List Char) : Bool := isDigits Char.isDigit (splitSign cs).2

def isExponentMark (c : Char) : Bool := c == 'e' || c == 'E'

/-- Whether a number without its sign is a float: a fraction, an exponent or both. -/
def isFloatBody (cs : List Char) : Bool :=
  let whole := cs.takeWhile (fun c => c != '.' && !isExponentMark c)
  isDecimal whole &&
    match cs.drop whole.length with
    | '.' :: rest =>
      let fraction := rest.takeWhile (fun c => !isExponentMark c)
      isDigits Char.isDigit fraction &&
        match rest.drop fraction.length with
        | [] => true
        | _ :: exponent => isExponent exponent
    | _ :: exponent => isExponent exponent
    | [] => false

/-- Whether a decimal float rounds to infinity: its digits times a power of ten reach the middle
between the greatest double and the next power of two. -/
def overflows (cs : List Char) : Bool :=
  let mantissa := cs.takeWhile (fun c => !isExponentMark c)
  let exponentPart := (cs.drop mantissa.length).drop 1
  let (negative, exponentDigits) := splitSign exponentPart
  let exponent : Int := if negative then -(digitsValue 10 exponentDigits : Int) else digitsValue 10 exponentDigits
  let fraction := (mantissa.dropWhile (fun c => c != '.')).filter Char.isDigit
  let digits := digitsValue 10 (mantissa.filter Char.isDigit)
  let scale := exponent - fraction.length
  let bound := Nat.pow 2 1024 - Nat.pow 2 970
  if digits = 0 then false
  else if scale > 400 then true
  else if 0 ≤ scale then bound ≤ digits * Nat.pow 10 scale.natAbs
  else if scale < -100000 then false
  else bound * Nat.pow 10 scale.natAbs ≤ digits

/-- A float; one beyond the greatest double is refused. -/
def isFloat (word : List Char) : Bool :=
  let (negative, body) := splitSign word
  body == ['i', 'n', 'f'] || body == ['n', 'a', 'n'] ||
    (isFloatBody body && (negative || !overflows body))

/-- The characters of numbers, dates, times and `true` and `false`. -/
def isWordChar (c : Char) : Bool :=
  c.isAlphanum || c == '_' || c == '+' || c == '-' || c == '.' || c == ':'

/-- A word, with the time that may follow a date after a blank. -/
def word (cs : List Char) : List Char × List Char :=
  let first := cs.takeWhile isWordChar
  let rest := cs.dropWhile isWordChar
  match rest with
  | ' ' :: more =>
    match Datetime.date first, twoDigits more with
    | some ((), []), some (_, ':' :: _) =>
      (first ++ ' ' :: more.takeWhile isWordChar, more.dropWhile isWordChar)
    | _, _ => (first, rest)
  | _ => (first, rest)

/-- A value that is a single word. -/
def wordValue? (word : List Char) : Option Value :=
  if word == "true".toList then some (.boolean true)
  else if word == "false".toList then some (.boolean false)
  else
    match integer? word with
    | some n => some (.integer n)
    | none =>
      if isFloat word then some .float
      else if Datetime.isWritten word then some .datetime
      else none

end Interop.Toml
