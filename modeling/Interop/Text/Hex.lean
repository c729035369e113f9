/-!
Hexadecimal digits.
-/
namespace Interop.Text

/-- A number in lower-case digits. -/
def hexText (n : Nat) : String := String.ofList (Nat.toDigits 16 n)

/-- The value of a digit in either case. -/
def hexDigit? (c : Char) : Option Nat :=
  if '0' ≤ c ∧ c ≤ '9' then some (c.toNat - '0'.toNat)
  else if 'a' ≤ c ∧ c ≤ 'f' then some (c.toNat - 'a'.toNat + 10)
  else if 'A' ≤ c ∧ c ≤ 'F' then some (c.toNat - 'A'.toNat + 10)
  else none

end Interop.Text
