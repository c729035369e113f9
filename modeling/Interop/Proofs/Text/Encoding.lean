import Interop.Proofs.Text.Surrogates

/-!
Text that was written out as units and read back. A character of the basic plane is a unit that is
no surrogate, and any other character is a high surrogate before a low one. So reading finds the end
of each character without looking further, and units of neighbours never join.
-/
namespace Interop.Text

variable {c : Char} {text : String}

/-- Beyond the basic plane, where a character takes two units. -/
def isAstral (c : Char) : Bool := 0x10000 ≤ c.toNat

theorem charUnits_of_basic (basic : isAstral c = false) : charUnits c = [c.toNat.toUInt16] := by
  have small : c.toNat < 0x10000 := by simpa [isAstral] using basic
  rw [charUnits, if_pos small]

/-- The unit of a character of the basic plane is its code, and no surrogate. -/
theorem unit_of_basic (basic : isAstral c = false) :
    c.toNat.toUInt16.toNat = c.toNat ∧ isHighSurrogate c.toNat.toUInt16 = false ∧
      isLowSurrogate c.toNat.toUInt16 = false := by
  have small : c.toNat < 0x10000 := by simpa [isAstral] using basic
  have valid : c.toNat.isValidChar := c.valid
  have code : c.toNat.toUInt16.toNat = c.toNat := by
    rw [Nat.toUInt16, UInt16.toNat_ofNat', Nat.mod_eq_of_lt small]
  rw [← Bool.not_eq_true, isHighSurrogate_iff, ← Bool.not_eq_true, isLowSurrogate_iff, code]
  unfold Nat.isValidChar at valid
  omega

/-- The units of any other character are a pair of surrogates that join to it. -/
theorem charUnits_of_astral (astral : isAstral c = true) :
    ∃ high low, charUnits c = [high, low] ∧ isHighSurrogate high = true ∧
      isLowSurrogate low = true ∧ joinSurrogates high low = c := by
  have large : 0x10000 ≤ c.toNat := by simpa [isAstral] using astral
  have valid : c.toNat.isValidChar := c.valid
  unfold Nat.isValidChar at valid
  obtain ⟨offset, isOffset⟩ : ∃ offset, c.toNat = 0x10000 + offset := ⟨c.toNat - 0x10000, by omega⟩
  have high : (0xd800 + offset / 0x400).toUInt16.toNat = 0xd800 + offset / 0x400 := by
    rw [Nat.toUInt16, UInt16.toNat_ofNat', Nat.mod_eq_of_lt (by omega)]
  have low : (0xdc00 + offset % 0x400).toUInt16.toNat = 0xdc00 + offset % 0x400 := by
    rw [Nat.toUInt16, UInt16.toNat_ofNat', Nat.mod_eq_of_lt (by omega)]
  refine ⟨(0xd800 + offset / 0x400).toUInt16, (0xdc00 + offset % 0x400).toUInt16, ?_, ?_, ?_, ?_⟩
  · rw [charUnits, if_neg (by omega), isOffset, Nat.add_sub_cancel_left]
  · rw [isHighSurrogate_iff, high]
    omega
  · rw [isLowSurrogate_iff, low]
    omega
  · have code : 0x10000 + (0xd800 + offset / 0x400 - 0xd800) * 0x400 +
        (0xdc00 + offset % 0x400 - 0xdc00) = c.toNat := by omega
    rw [joinSurrogates, high, low, code, Char.ofNat_toNat]

/-- A unit that is no surrogate is read by itself. -/
theorem charsOfUnits_plain {unit : UInt16} (noHigh : isHighSurrogate unit = false)
    (noLow : isLowSurrogate unit = false) (rest : List UInt16) :
    charsOfUnits (unit :: rest) = Char.ofNat unit.toNat :: charsOfUnits rest := by
  cases rest with
  | nil => simp [charsOfUnits, noHigh, noLow]
  | cons next rest => simp [charsOfUnits, noHigh, noLow]

theorem charsOfUnits_charUnits_append (c : Char) (rest : List UInt16) :
    charsOfUnits (charUnits c ++ rest) = c :: charsOfUnits rest := by
  cases plane : isAstral c with
  | false =>
    obtain ⟨code, noHigh, noLow⟩ := unit_of_basic plane
    rw [charUnits_of_basic plane, List.singleton_append, charsOfUnits_plain noHigh noLow, code,
      Char.ofNat_toNat]
  | true =>
    obtain ⟨high, low, both, isHigh, isLow, joined⟩ := charUnits_of_astral plane
    rw [both, List.cons_append, List.singleton_append, charsOfUnits, if_pos isHigh, if_pos isLow,
      joined]

theorem charsOfUnits_flatMap (cs : List Char) : charsOfUnits (cs.flatMap charUnits) = cs := by
  induction cs with
  | nil => rfl
  | cons c rest ih => rw [List.flatMap_cons, charsOfUnits_charUnits_append, ih]

theorem ofUnits_units (text : String) : ofUnits (units text) = text := by
  rw [ofUnits, units, charsOfUnits_flatMap, String.ofList_toList]

theorem length_charUnits (c : Char) : (charUnits c).length = if isAstral c then 2 else 1 := by
  cases plane : isAstral c with
  | false =>
    rw [charUnits_of_basic plane]
    rfl
  | true =>
    obtain ⟨high, low, both, _⟩ := charUnits_of_astral plane
    rw [both]
    rfl

/-- A text has a unit for each character, and one more for each beyond the basic plane. -/
theorem length_units (text : String) :
    (units text).length = text.length + text.toList.countP isAstral := by
  rw [units, ← String.length_toList]
  induction text.toList with
  | nil => rfl
  | cons c rest ih =>
    rw [List.flatMap_cons, List.length_append, ih, length_charUnits, List.length_cons,
      List.countP_cons]
    split <;> omega

/-- A text of one unit is one character of the basic plane. -/
theorem length_units_eq_one_iff :
    (units text).length = 1 ↔ ∃ c, text = String.singleton c ∧ isAstral c = false := by
  constructor
  · intro one
    rw [length_units, ← String.length_toList] at one
    have fewer := List.countP_le_length (p := isAstral) (l := text.toList)
    obtain ⟨c, single⟩ := List.length_eq_one_iff.mp (show text.toList.length = 1 by omega)
    refine ⟨c, String.toList_inj.mp (by simpa using single), ?_⟩
    simpa [single] using one
  · rintro ⟨c, rfl, basic⟩
    simp [length_units, basic]

end Interop.Text
