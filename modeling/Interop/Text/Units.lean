/-!
Text as sixteen-bit units. Characters beyond the basic plane take two units, a high and a low
surrogate; reading units back replaces every surrogate without a partner.
-/
namespace Interop.Text

/-- The one or two units of a character. -/
def charUnits (c : Char) : List UInt16 :=
  if c.toNat < 0x10000 then [c.toNat.toUInt16]
  else
    let offset := c.toNat - 0x10000
    [(0xd800 + offset / 0x400).toUInt16, (0xdc00 + offset % 0x400).toUInt16]

def units (text : String) : List UInt16 := text.toList.flatMap charUnits

def isHighSurrogate (unit : UInt16) : Bool := 0xd800 ≤ unit && unit < 0xdc00
def isLowSurrogate (unit : UInt16) : Bool := 0xdc00 ≤ unit && unit < 0xe000

/-- Stands in for a surrogate without a partner. -/
def replacement : Char := '\ufffd'

/-- The character of a high and a low surrogate. -/
def joinSurrogates (high low : UInt16) : Char :=
  Char.ofNat (0x10000 + (high.toNat - 0xd800) * 0x400 + (low.toNat - 0xdc00))

def charsOfUnits : List UInt16 → List Char
  | [] => []
  | [unit] =>
    if isHighSurrogate unit || isLowSurrogate unit then [replacement] else [Char.ofNat unit.toNat]
  | unit :: next :: rest =>
    if isHighSurrogate unit then
      if isLowSurrogate next then joinSurrogates unit next :: charsOfUnits rest
      else replacement :: charsOfUnits (next :: rest)
    else if isLowSurrogate unit then replacement :: charsOfUnits (next :: rest)
    else Char.ofNat unit.toNat :: charsOfUnits (next :: rest)

def ofUnits (us : List UInt16) : String := String.ofList (charsOfUnits us)

end Interop.Text
