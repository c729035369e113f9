import Interop.Decimal.Shortest

/-!
Decimal text of binary floating-point numbers of 32 and 64 bits.

A number is taken apart into sign, mantissa and exponent, its shortest decimal is found, and a
`Style` decides how the digits are laid out.
-/
namespace Interop.Decimal

/-- The shape of a binary interchange format. -/
structure Layout where
  mantissaBits : Nat
  exponentBits : Nat
  deriving DecidableEq, Repr

def Layout.single : Layout := ⟨23, 8⟩
def Layout.double : Layout := ⟨52, 11⟩

/-- What a bit pattern stands for. -/
inductive Reading where
  | nan
  | infinite (negative : Bool)
  | finite (negative : Bool) (magnitude : Option Scientific)
  deriving DecidableEq, Repr

/-- Reads a bit pattern; a finite number without a magnitude is a zero. -/
def Layout.read (layout : Layout) (bits : Nat) : Reading :=
  let fraction := bits % Nat.pow 2 layout.mantissaBits
  let exponent := bits / Nat.pow 2 layout.mantissaBits % Nat.pow 2 layout.exponentBits
  let negative := bits / Nat.pow 2 (layout.mantissaBits + layout.exponentBits) % 2 == 1
  let bias : Int := Nat.pow 2 (layout.exponentBits - 1) - 1 + layout.mantissaBits
  if exponent == Nat.pow 2 layout.exponentBits - 1 then
    if fraction == 0 then .infinite negative else .nan
  else if exponent == 0 then
    if fraction == 0 then .finite negative none
    else .finite negative (some (shortest (.ofBinary fraction (1 - bias) false)))
  else
    let mantissa := Nat.pow 2 layout.mantissaBits + fraction
    .finite negative (some (shortest
      (.ofBinary mantissa (exponent - bias) (fraction == 0 && exponent != 1))))

/-- How the digits of a finite number are laid out. -/
structure Style where
  /-- Whole numbers keep a fraction of one zero. -/
  wholeFraction : Bool
  /-- Numbers below `10^exponentBelow` are written with an exponent. -/
  exponentBelow : Option Int
  /-- Numbers from `10^exponentFrom` on are written with an exponent. -/
  exponentFrom : Option Int
  deriving DecidableEq, Repr

/-- Values in messages: positional always, and a whole number has no fraction. -/
def Style.positional : Style := ⟨false, none, none⟩

/-- Elements of typed arrays: a whole number keeps `.0`, and an exponent is written below
`10^-4` and from `10^16` on. -/
def Style.element : Style := ⟨true, some (-4), some 16⟩

def natText (n : Nat) : String := String.ofList (Nat.toDigits 10 n)

def intText (n : Int) : String :=
  if n < 0 then "-" ++ natText n.natAbs else natText n.natAbs

/-- The exponent of the leading digit. -/
def Scientific.leading (d : Scientific) : Int := d.exponent + digitCount d.digits - 1

/-- Digits with the point in its place. -/
def Scientific.positional (d : Scientific) (wholeFraction : Bool) : String :=
  let digits := Nat.toDigits 10 d.digits
  let whole (text : List Char) := String.ofList text ++ (if wholeFraction then ".0" else "")
  if 0 ≤ d.exponent then whole (digits ++ List.replicate d.exponent.natAbs '0')
  else
    let places := d.exponent.natAbs
    if places < digits.length then
      let (front, back) := digits.splitAt (digits.length - places)
      String.ofList front ++ "." ++ String.ofList back
    else
      "0." ++ String.ofList (List.replicate (places - digits.length) '0' ++ digits)

/-- One digit, a point before the others if there are any, and the exponent of the first. -/
def Scientific.withExponent (d : Scientific) : String :=
  let mantissa :=
    match Nat.toDigits 10 d.digits with
    | [] => "0"
    | first :: [] => String.ofList [first]
    | first :: rest => String.ofList (first :: '.' :: rest)
  mantissa ++ "e" ++ intText d.leading

def Style.write (style : Style) (d : Scientific) : String :=
  let small := style.exponentBelow.any (fun bound => d.leading < bound)
  let large := style.exponentFrom.any (fun bound => bound ≤ d.leading)
  if small || large then d.withExponent else d.positional style.wholeFraction

def Reading.text (style : Style) : Reading → String
  | .nan => "NaN"
  | .infinite negative => if negative then "-inf" else "inf"
  | .finite negative magnitude =>
    let body :=
      match magnitude with
      | some d => style.write d
      | none => if style.wholeFraction then "0.0" else "0"
    if negative then "-" ++ body else body

def doubleText (style : Style) (x : Float) : String :=
  (Layout.double.read x.toBits.toNat).text style

def singleText (style : Style) (x : Float32) : String :=
  (Layout.single.read x.toBits.toNat).text style

end Interop.Decimal
