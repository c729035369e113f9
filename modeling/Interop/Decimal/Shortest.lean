/-!
The shortest decimal that reads back as a given binary value.

A binary value `m · 2^q` owns the interval of reals that round to it. `shortest` tries grids of one,
two, three, … significant digits and takes the first that has a point in the interval; of the two
neighbours of the value on that grid the nearer wins, and a tie goes up.
-/
namespace Interop.Decimal

/-- A decimal `digits · 10^exponent`. -/
structure Scientific where
  digits : Nat
  exponent : Int
  deriving DecidableEq, Repr

/-- A non-negative fraction, as an exact value. -/
structure Ratio where
  num : Nat
  den : Nat
  deriving DecidableEq, Repr

/-- The value `n · base^e`, with a negative power in the denominator. -/
def Ratio.scaled (n base : Nat) (e : Int) : Ratio :=
  if e < 0 then ⟨n, Nat.pow base e.natAbs⟩ else ⟨n * Nat.pow base e.natAbs, 1⟩

def Ratio.le (a b : Ratio) : Bool := a.num * b.den ≤ b.num * a.den
def Ratio.lt (a b : Ratio) : Bool := a.num * b.den < b.num * a.den

/-- The reals that round to a binary value; its ends belong to it when `closed`. -/
structure Interval where
  low : Ratio
  value : Ratio
  high : Ratio
  closed : Bool

/-- The interval of `m · 2^q`. A mantissa on a power of two has its lower neighbour at half the
distance, which `narrowBelow` says; a real half way between two values rounds to the even one. -/
def Interval.ofBinary (m : Nat) (q : Int) (narrowBelow : Bool) : Interval where
  low := .scaled (4 * m - (if narrowBelow then 1 else 2)) 2 (q - 2)
  value := .scaled (4 * m) 2 (q - 2)
  high := .scaled (4 * m + 2) 2 (q - 2)
  closed := m % 2 == 0

def Interval.contains (i : Interval) (x : Ratio) : Bool :=
  if i.closed then i.low.le x && x.le i.high else i.low.lt x && x.lt i.high

/-- The number of decimal digits of a natural number. -/
def digitCount (n : Nat) : Nat := (Nat.toDigits 10 n).length

/-- The zeros between the point and the first digit of a value below one. -/
def leadingZeros : (fuel : Nat) → Ratio → Nat
  | 0, _ => 0
  | fuel + 1, x => if x.num * 10 < x.den then leadingZeros fuel ⟨x.num * 10, x.den⟩ + 1 else 0

/-- The `k` with `10^(k-1) ≤ x < 10^k`. -/
def magnitude (x : Ratio) : Int :=
  if x.den ≤ x.num then (digitCount (x.num / x.den) : Int) else -(leadingZeros x.den.log2 x : Int)

/-- The greatest multiple of `10^e` that is at most `x`, as its multiplier. -/
def gridBelow (x : Ratio) (e : Int) : Nat :=
  if e < 0 then x.num * Nat.pow 10 e.natAbs / x.den else x.num / (x.den * Nat.pow 10 e.natAbs)

/-- Whether `x` lies in the upper half between a grid point and the next, the middle included. -/
def upperHalf (x : Ratio) (below : Nat) (e : Int) : Bool :=
  let twice := Ratio.scaled (2 * below + 1) 10 e
  Ratio.le ⟨twice.num, 2 * twice.den⟩ x

/-- The point of the grid `10^e` that the interval offers, the nearer of two. -/
def gridPoint? (i : Interval) (e : Int) : Option Nat :=
  let below := gridBelow i.value e
  let lower := i.contains (.scaled below 10 e)
  let upper := i.contains (.scaled (below + 1) 10 e)
  if lower && upper then some (if upperHalf i.value below e then below + 1 else below)
  else if lower then some below
  else if upper then some (below + 1)
  else none

/-- Grids of `n`, `n + 1`, … digits; `left` of them are tried, and the last always answers. -/
def searchGrids (i : Interval) (k : Int) : (left n : Nat) → Scientific
  | 0, n =>
    let below := gridBelow i.value (k - n)
    ⟨if upperHalf i.value below (k - n) then below + 1 else below, k - n⟩
  | left + 1, n =>
    match gridPoint? i (k - n) with
    | some point => ⟨point, k - n⟩
    | none => searchGrids i k left (n + 1)

/-- The same decimal without zeros at its end. -/
def Scientific.trim (d : Scientific) : Scientific :=
  go (digitCount d.digits) d
where
  go : Nat → Scientific → Scientific
    | 0, d => d
    | fuel + 1, d => if d.digits % 10 == 0 then go fuel ⟨d.digits / 10, d.exponent + 1⟩ else d

/-- The shortest decimal in the interval. Seventeen digits tell any two binary values of the
supported widths apart. -/
def shortest (i : Interval) : Scientific := (searchGrids i (magnitude i.value) 16 1).trim

end Interop.Decimal
