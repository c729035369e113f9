import Interop.Text.Hex

/-!
Dates and times in TOML documents. Every scanner takes characters and gives what it has read with the
characters that are left.

A date-time stands in a document as it is, or as the text of an entry with a reserved name; both have
the same form.
-/
namespace Interop.Toml

abbrev Scanner (α : Type) := List Char → Option (α × List Char)

/-- The digits without underscores, as a number. -/
def digitsValue (base : Nat) (cs : List Char) : Nat :=
  (cs.filterMap Text.hexDigit?).foldl (fun n d => base * n + d) 0

def twoDigits : Scanner Nat
  | a :: b :: rest => if a.isDigit && b.isDigit then some (digitsValue 10 [a, b], rest) else none
  | _ => none

namespace Datetime

def isLeapYear (year : Nat) : Bool := year % 4 == 0 && (year % 100 != 0 || year % 400 == 0)

def daysInMonth (year month : Nat) : Nat :=
  if month == 2 then (if isLeapYear year then 29 else 28)
  else if month == 4 || month == 6 || month == 9 || month == 11 then 30
  else 31

/-- A calendar date. -/
def date : Scanner Unit
  | a :: b :: c :: d :: '-' :: rest => do
    if !(a.isDigit && b.isDigit && c.isDigit && d.isDigit) then none
    let year := digitsValue 10 [a, b, c, d]
    let (month, rest) ← twoDigits rest
    match rest with
    | '-' :: rest =>
      let (day, rest) ← twoDigits rest
      if 1 ≤ month && month ≤ 12 && 1 ≤ day && day ≤ daysInMonth year month then some ((), rest) else none
    | _ => none
  | _ => none

/-- A time of day with seconds and an optional fraction of them. A minute may have a leap second. -/
def time : Scanner Unit := fun cs => do
  let (hour, rest) ← twoDigits cs
  match rest with
  | ':' :: rest =>
    let (minute, rest) ← twoDigits rest
    match rest with
    | ':' :: rest =>
      let (second, rest) ← twoDigits rest
      if hour ≤ 23 && minute ≤ 59 && second ≤ 60 then
        match rest with
        | '.' :: more =>
          match more.takeWhile Char.isDigit with
          | [] => none
          | fraction => some ((), more.drop fraction.length)
        | rest => some ((), rest)
      else none
    | _ => none
  | _ => none

/-- The distance from universal time, which may be left out. -/
def isOffset : List Char → Bool
  | [] => true
  | ['Z'] => true
  | ['z'] => true
  | sign :: rest =>
    (sign == '+' || sign == '-') &&
      match twoDigits rest with
      | some (hours, ':' :: rest) =>
        match twoDigits rest with
        | some (minutes, []) => hours ≤ 23 && minutes ≤ 59
        | _ => false
      | _ => false

/-- A date, a time, or a date with a time and an optional offset. -/
def isWritten (cs : List Char) : Bool :=
  match date cs with
  | some ((), []) => true
  | some ((), mark :: rest) =>
    (mark == 'T' || mark == 't' || mark == ' ') &&
      match time rest with
      | some ((), rest) => isOffset rest
      | none => false
  | none =>
    match time cs with
    | some ((), []) => true
    | _ => false

end Datetime

end Interop.Toml
