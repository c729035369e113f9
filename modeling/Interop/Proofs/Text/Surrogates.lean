import Mathlib.Data.List.Basic
import Interop.Text.Units

/-!
Units that were read into text and written out again. Surrogates that stand in pairs, a high one and
then a low one, come back with all other units. A surrogate without its partner is no character, so
another unit comes back in its place; the number of units stays the same.
-/
namespace Interop.Text

variable {unit high low : UInt16} {before after : Option UInt16} {us : List UInt16}

theorem isHighSurrogate_iff :
    isHighSurrogate unit = true ↔ 0xd800 ≤ unit.toNat ∧ unit.toNat < 0xdc00 := by
  simp [isHighSurrogate, UInt16.le_iff_toNat_le, UInt16.lt_iff_toNat_lt]

theorem isLowSurrogate_iff :
    isLowSurrogate unit = true ↔ 0xdc00 ≤ unit.toNat ∧ unit.toNat < 0xe000 := by
  simp [isLowSurrogate, UInt16.le_iff_toNat_le, UInt16.lt_iff_toNat_lt]

theorem not_low_of_high (isHigh : isHighSurrogate unit = true) : isLowSurrogate unit = false := by
  rw [isHighSurrogate_iff] at isHigh
  rw [← Bool.not_eq_true, isLowSurrogate_iff]
  omega

theorem not_high_of_low (isLow : isLowSurrogate unit = true) : isHighSurrogate unit = false := by
  rw [isLowSurrogate_iff] at isLow
  rw [← Bool.not_eq_true, isHighSurrogate_iff]
  omega

/-- The unit of the character that stands in for a surrogate without a partner. -/
def replacementUnit : UInt16 := 0xfffd

theorem charUnits_replacement : charUnits replacement = [replacementUnit] := rfl

theorem toNat_ofNat_of_valid {n : Nat} (valid : n.isValidChar) : (Char.ofNat n).toNat = n := by
  rw [Char.ofNat, dif_pos valid]
  rfl

/-- A unit that is no surrogate is a character of its own. -/
theorem charUnits_ofNat (noHigh : isHighSurrogate unit = false)
    (noLow : isLowSurrogate unit = false) : charUnits (Char.ofNat unit.toNat) = [unit] := by
  rw [← Bool.not_eq_true, isHighSurrogate_iff] at noHigh
  rw [← Bool.not_eq_true, isLowSurrogate_iff] at noLow
  have small : unit.toNat < 0x10000 := unit.toNat_lt
  have valid : unit.toNat.isValidChar := by unfold Nat.isValidChar; omega
  rw [charUnits, toNat_ofNat_of_valid valid, if_pos small, Nat.toUInt16, UInt16.ofNat_toNat]

/-- A pair of surrogates is the pair of its character. -/
theorem charUnits_joinSurrogates (isHigh : isHighSurrogate high = true)
    (isLow : isLowSurrogate low = true) : charUnits (joinSurrogates high low) = [high, low] := by
  rw [isHighSurrogate_iff] at isHigh
  rw [isLowSurrogate_iff] at isLow
  obtain ⟨code, isCode⟩ : ∃ code, code = 0x10000 + (high.toNat - 0xd800) * 0x400 +
      (low.toNat - 0xdc00) := ⟨_, rfl⟩
  have valid : code.isValidChar := by
    unfold Nat.isValidChar
    omega
  have large : ¬code < 0x10000 := by omega
  have first : 0xd800 + (code - 0x10000) / 0x400 = high.toNat := by omega
  have second : 0xdc00 + (code - 0x10000) % 0x400 = low.toNat := by omega
  simp only [charUnits, joinSurrogates, ← isCode, toNat_ofNat_of_valid valid, if_neg large, first,
    second, Nat.toUInt16, UInt16.ofNat_toNat]

/-- Whether a unit between its neighbours is a surrogate without its partner. -/
def isLone (before : Option UInt16) (unit : UInt16) (after : Option UInt16) : Bool :=
  (isHighSurrogate unit && !after.any isLowSurrogate) ||
    (isLowSurrogate unit && !before.any isHighSurrogate)

theorem isLone_high (isHigh : isHighSurrogate unit = true) :
    isLone before unit after = !after.any isLowSurrogate := by
  simp [isLone, isHigh, not_low_of_high isHigh]

theorem isLone_low (isLow : isLowSurrogate unit = true) :
    isLone before unit after = !before.any isHighSurrogate := by
  simp [isLone, isLow, not_high_of_low isLow]

theorem isLone_plain (noHigh : isHighSurrogate unit = false) (noLow : isLowSurrogate unit = false) :
    isLone before unit after = false := by
  simp [isLone, noHigh, noLow]

/-- A low surrogate is alone unless a high one before it is waiting for it. -/
theorem isLone_of_apart (isLow : isLowSurrogate unit = true)
    (apart : before.any isHighSurrogate = true → (some unit).any isLowSurrogate = false) :
    isLone before unit after = true := by
  rw [isLone_low isLow, Bool.not_eq_true']
  by_contra waiting
  simpa [isLow] using apart (Bool.not_eq_false _ ▸ waiting)

theorem isLone_replacementUnit : isLone before replacementUnit after = false :=
  isLone_plain rfl rfl

/-- The unit before an index. -/
def unitBefore (us : List UInt16) (i : Nat) : Option UInt16 := if i = 0 then none else us[i - 1]?

/-- The units with every surrogate without its partner replaced. -/
def repaired (us : List UInt16) : List UInt16 :=
  us.mapIdx fun i unit => if isLone (unitBefore us i) unit us[i + 1]? then replacementUnit else unit

/-- Every surrogate stands beside its partner. -/
def WellPaired (us : List UInt16) : Prop :=
  ∀ i unit, us[i]? = some unit → isLone (unitBefore us i) unit us[i + 1]? = false

/-- The same, unit by unit, behind a unit that is known. -/
def repairedAfter (before : Option UInt16) : List UInt16 → List UInt16
  | [] => []
  | unit :: rest =>
    (if isLone before unit rest.head? then replacementUnit else unit) ::
      repairedAfter (some unit) rest

theorem repairedAfter_eq (before : Option UInt16) (us : List UInt16) :
    repairedAfter before us = us.mapIdx fun i unit =>
      if isLone (if i = 0 then before else us[i - 1]?) unit us[i + 1]? then replacementUnit
      else unit := by
  induction us generalizing before with
  | nil => rfl
  | cons unit rest ih =>
    rw [repairedAfter, ih, List.mapIdx_cons]
    congr 1
    · simp [List.head?_eq_getElem?]
    · congr 1
      funext i u
      cases i <;> simp

theorem repairedAfter_none (us : List UInt16) : repairedAfter none us = repaired us :=
  repairedAfter_eq none us

theorem repairedAfter_lone {rest : List UInt16} (lone : isLone before unit rest.head? = true) :
    repairedAfter before (unit :: rest) = replacementUnit :: repairedAfter (some unit) rest := by
  rw [repairedAfter, if_pos lone]

theorem repairedAfter_kept {rest : List UInt16} (paired : isLone before unit rest.head? = false) :
    repairedAfter before (unit :: rest) = unit :: repairedAfter (some unit) rest := by
  rw [repairedAfter, if_neg (Bool.eq_false_iff.mp paired)]

/-- Text from units gives the units back, apart from surrogates without a partner. A high surrogate
before them must not be waiting for the first of them. -/
theorem flatMap_charUnits (us : List UInt16)
    (apart : before.any isHighSurrogate = true → us.head?.any isLowSurrogate = false) :
    (charsOfUnits us).flatMap charUnits = repairedAfter before us := by
  fun_induction charsOfUnits us generalizing before with
  | case1 => rfl
  | case2 unit surrogate =>
    have lone : isLone before unit none = true := by
      rcases Bool.or_eq_true_iff.mp surrogate with isHigh | isLow
      · simp [isLone_high isHigh]
      · exact isLone_of_apart isLow apart
    rw [repairedAfter_lone lone]
    rfl
  | case3 unit plain =>
    obtain ⟨noHigh, noLow⟩ := Bool.or_eq_false_iff.mp (Bool.eq_false_iff.mpr plain)
    rw [repairedAfter_kept (isLone_plain noHigh noLow), List.flatMap_cons,
      charUnits_ofNat noHigh noLow]
    rfl
  | case4 unit next rest isHigh isLow ih =>
    have first : isLone before unit (next :: rest).head? = false := by
      simp [isLone_high isHigh, isLow]
    have second : isLone (some unit) next rest.head? = false := by simp [isLone_low isLow, isHigh]
    have apart' : (some next).any isHighSurrogate = true →
        rest.head?.any isLowSurrogate = false := by simp [not_high_of_low isLow]
    rw [repairedAfter_kept first, repairedAfter_kept second, List.flatMap_cons,
      charUnits_joinSurrogates isHigh isLow, ih apart']
    rfl
  | case5 unit next rest isHigh noLow ih =>
    have lone : isLone before unit (next :: rest).head? = true := by
      simp [isLone_high isHigh, noLow]
    rw [repairedAfter_lone lone, List.flatMap_cons, charUnits_replacement,
      ih fun _ => by simpa using noLow]
    rfl
  | case6 unit next rest noHigh isLow ih =>
    have apart' : (some unit).any isHighSurrogate = true →
        (next :: rest).head?.any isLowSurrogate = false := fun isHigh => absurd isHigh noHigh
    rw [repairedAfter_lone (isLone_of_apart isLow apart), List.flatMap_cons, charUnits_replacement,
      ih apart']
    rfl
  | case7 unit next rest noHigh noLow ih =>
    have apart' : (some unit).any isHighSurrogate = true →
        (next :: rest).head?.any isLowSurrogate = false := fun isHigh => absurd isHigh noHigh
    rw [Bool.not_eq_true] at noHigh noLow
    rw [repairedAfter_kept (isLone_plain noHigh noLow), List.flatMap_cons,
      charUnits_ofNat noHigh noLow, ih apart']
    rfl

/-- Units that were read into text and written out again. -/
theorem units_ofUnits (us : List UInt16) : units (ofUnits us) = repaired us := by
  rw [units, ofUnits, String.toList_ofList, ← repairedAfter_none]
  exact flatMap_charUnits us fun waiting => absurd waiting (by simp)

theorem units_ofUnits_singleton (unit : UInt16) :
    units (ofUnits [unit]) =
      [if isHighSurrogate unit || isLowSurrogate unit then replacementUnit else unit] := by
  rw [units_ofUnits]
  simp [repaired, isLone, unitBefore]

theorem repaired_eq_self_iff : repaired us = us ↔ WellPaired us := by
  constructor
  · intro same i unit found
    by_contra lone
    have there : (repaired us)[i]? = some unit := by rw [same, found]
    simp only [repaired, List.getElem?_mapIdx, found, Option.map_some, if_pos
      (Bool.not_eq_false _ ▸ lone), Option.some.injEq] at there
    -- What stands in for a surrogate is none.
    subst there
    exact lone isLone_replacementUnit
  · intro paired
    apply List.ext_getElem?
    intro i
    rw [repaired, List.getElem?_mapIdx]
    cases found : us[i]? with
    | none => rfl
    | some unit => simp [paired i unit found]

end Interop.Text
