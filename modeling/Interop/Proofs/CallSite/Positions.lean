import Mathlib.Data.Nat.Digits.Defs
import Mathlib.Order.Bounds.Basic
import Interop.CallSite

/-!
Dictionaries that stand for argument lists. A key names an index when it is a decimal numeral of it,
and one index has many numerals: zeros and a plus sign may precede the digits. Values are laid out
in the order of the keys, so of the entries that name one index the last one stays, and every
position that no key names is null.
-/
namespace Interop

variable {key : String} {index : Nat} {value : ScriptValue} {entries : List (String × ScriptValue)}

/-- The text is a decimal numeral of the index: digits, listed here from the lowest one, which a
plus sign may precede. -/
def Spells (key : String) (index : Nat) : Prop :=
  ∃ digits : List Nat, digits ≠ [] ∧ (∀ digit ∈ digits, digit < 10) ∧
    Nat.ofDigits 10 digits = index ∧
    (key.toList = digits.reverse.map Nat.digitChar ∨
      key.toList = '+' :: digits.reverse.map Nat.digitChar)

/-- The text is a numeral of a position that an argument list can have. -/
def IsIndex (key : String) : Prop := ∃ index < maxParameters, Spells key index

theorem digitChar_isDigit : ∀ digit < 10, (Nat.digitChar digit).isDigit = true := by decide

theorem toNat_digitChar : ∀ digit < 10, (Nat.digitChar digit).toNat - '0'.toNat = digit := by
  decide

theorem digitChar_eq_ofNat : ∀ digit < 10, Nat.digitChar digit = Char.ofNat (48 + digit) := by
  decide

theorem exists_digitChar {c : Char} (isDigit : c.isDigit = true) :
    ∃ digit < 10, Nat.digitChar digit = c := by
  have bounds : (decide (c.val ≥ 48) && decide (c.val ≤ 57)) = true := isDigit
  rw [Bool.and_eq_true, decide_eq_true_eq, decide_eq_true_eq] at bounds
  have low : 48 ≤ c.toNat := bounds.1
  have high : c.toNat ≤ 57 := bounds.2
  have small : c.toNat - 48 < 10 := by omega
  have code : 48 + (c.toNat - 48) = c.toNat := by omega
  refine ⟨c.toNat - 48, small, ?_⟩
  rw [digitChar_eq_ofNat _ small, code, Char.ofNat_toNat]

/-- Digit characters are the digits of some number, from the lowest one. -/
theorem exists_digits : ∀ chars : List Char, chars.all Char.isDigit = true →
    ∃ digits : List Nat, (∀ digit ∈ digits, digit < 10) ∧ chars = digits.reverse.map Nat.digitChar
  | [], _ => ⟨[], List.forall_mem_nil _, rfl⟩
  | c :: rest, all => by
    rw [List.all_cons, Bool.and_eq_true] at all
    obtain ⟨digit, small, rfl⟩ := exists_digitChar all.1
    obtain ⟨digits, areSmall, rfl⟩ := exists_digits rest all.2
    refine ⟨digits ++ [digit], ?_, ?_⟩
    · intro other isIn
      rcases List.mem_append.1 isIn with isLower | isTop
      · exact areSmall other isLower
      · exact List.mem_singleton.1 isTop ▸ small
    · simp

theorem all_isDigit {digits : List Nat} (areSmall : ∀ digit ∈ digits, digit < 10) :
    (digits.reverse.map Nat.digitChar).all Char.isDigit = true := by
  rw [List.all_eq_true]
  intro c isIn
  obtain ⟨digit, isDigit, rfl⟩ := List.mem_map.1 isIn
  exact digitChar_isDigit digit (areSmall digit (List.mem_reverse.1 isDigit))

/-- The number that digits show, read from the highest one on. -/
def readDigits (chars : List Char) : Nat :=
  chars.foldl (fun n c => 10 * n + (c.toNat - '0'.toNat)) 0

/-- Digits count by their places. -/
theorem readDigits_map : ∀ digits : List Nat, (∀ digit ∈ digits, digit < 10) →
    readDigits (digits.reverse.map Nat.digitChar) = Nat.ofDigits 10 digits
  | [], _ => rfl
  | digit :: rest, areSmall => by
    have higher := readDigits_map rest fun other isIn =>
      areSmall other (List.mem_cons_of_mem _ isIn)
    have lowest := toNat_digitChar digit (areSmall digit List.mem_cons_self)
    rw [readDigits] at higher
    rw [readDigits, List.reverse_cons, List.map_append, List.foldl_append, higher,
      List.map_singleton, List.foldl_cons, List.foldl_nil, lowest, Nat.ofDigits_cons, Nat.add_comm]

def withoutPlus : List Char → List Char
  | '+' :: rest => rest
  | chars => chars

theorem withoutPlus_plus (rest : List Char) : withoutPlus ('+' :: rest) = rest := rfl

theorem eq_withoutPlus (chars : List Char) :
    chars = withoutPlus chars ∨ chars = '+' :: withoutPlus chars := by
  fun_cases withoutPlus chars
  · exact .inr rfl
  · exact .inl rfl

theorem withoutPlus_of_digits {chars : List Char} (areDigits : chars.all Char.isDigit = true) :
    withoutPlus chars = chars := by
  rcases eq_withoutPlus chars with same | starts
  · exact same.symm
  · rw [starts, List.all_cons] at areDigits
    exact absurd areDigits (by simp)

/-- A numeral is what digits are left of after a plus sign. -/
theorem spells_iff : Spells key index ↔
    withoutPlus key.toList ≠ [] ∧ (withoutPlus key.toList).all Char.isDigit = true ∧
      readDigits (withoutPlus key.toList) = index := by
  constructor
  · rintro ⟨digits, nonempty, areSmall, rfl, text⟩
    have areDigits := all_isDigit areSmall
    have read : withoutPlus key.toList = digits.reverse.map Nat.digitChar := by
      rcases text with plain | signed
      · rw [plain, withoutPlus_of_digits areDigits]
      · rw [signed, withoutPlus_plus]
    rw [read]
    exact ⟨by simpa using nonempty, areDigits, readDigits_map digits areSmall⟩
  · rintro ⟨nonempty, areDigits, rfl⟩
    obtain ⟨digits, areSmall, shown⟩ := exists_digits _ areDigits
    have text := eq_withoutPlus key.toList
    rw [shown] at nonempty text ⊢
    exact ⟨digits, by simpa using nonempty, areSmall, (readDigits_map digits areSmall).symm, text⟩

/-- A key spells one index at most. -/
theorem Spells.unique {other : Nat} (spells : Spells key index) (again : Spells key other) :
    index = other :=
  (spells_iff.1 spells).2.2.symm.trans (spells_iff.1 again).2.2

/-- The index that is read off a key is the one it spells, up to the length of argument lists. -/
theorem parseIndex?_eq_some_iff :
    parseIndex? key = some index ↔ Spells key index ∧ index < maxParameters := by
  have unfolded : parseIndex? key =
      if (withoutPlus key.toList).isEmpty || !(withoutPlus key.toList).all Char.isDigit then none
      else if readDigits (withoutPlus key.toList) < maxParameters then
        some (readDigits (withoutPlus key.toList))
      else none := rfl
  rw [unfolded, spells_iff, Option.ite_none_left_eq_some, Option.ite_none_right_eq_some]
  constructor
  · rintro ⟨isNumeral, isShort, same⟩
    cases same
    have ⟨nonempty, areDigits⟩ : withoutPlus key.toList ≠ [] ∧
        (withoutPlus key.toList).all Char.isDigit = true := by simpa using isNumeral
    exact ⟨⟨nonempty, areDigits, rfl⟩, isShort⟩
  · rintro ⟨⟨nonempty, areDigits, rfl⟩, isShort⟩
    exact ⟨by simpa [areDigits] using nonempty, isShort, rfl⟩

theorem isIndex_iff : IsIndex key ↔ ∃ index, parseIndex? key = some index := by
  simp only [IsIndex, parseIndex?_eq_some_iff, and_comm]

/-- The entry with its key read as a position. -/
def placed (position : String → Nat) (entry : String × ScriptValue) : Nat × ScriptValue :=
  (position entry.1, entry.2)

theorem indexEntries?_of_parsed {position : String → Nat}
    (parsed : ∀ entry ∈ entries, parseIndex? entry.1 = some (position entry.1)) :
    indexEntries? entries = some (entries.map (placed position)) := by
  induction entries with
  | nil => rfl
  | cons entry rest ih =>
    rw [indexEntries?, parsed entry List.mem_cons_self,
      ih fun other isIn => parsed other (List.mem_cons_of_mem _ isIn)]
    rfl

theorem indexEntries?_of_not_isIndex {entry : String × ScriptValue} (isEntry : entry ∈ entries)
    (noIndex : ¬ IsIndex entry.1) : indexEntries? entries = none := by
  induction entries with
  | nil => cases isEntry
  | cons first rest ih =>
    rw [indexEntries?]
    rcases List.mem_cons.1 isEntry with rfl | isLater
    · have failed : parseIndex? entry.1 = none := by
        rw [Option.eq_none_iff_forall_ne_some]
        exact fun index parsed => noIndex (isIndex_iff.2 ⟨index, parsed⟩)
      rw [failed]
      rfl
    · rw [ih isLater]
      cases parseIndex? first.1 <;> rfl

theorem length_foldl_set (writes : List (Nat × ScriptValue)) (args : List ScriptValue) :
    (writes.foldl (fun args write => args.set write.1 write.2) args).length = args.length := by
  induction writes generalizing args with
  | nil => rfl
  | cons write rest ih => rw [List.foldl_cons, ih, List.length_set]

theorem getElem?_foldl_set_of_unwritten {writes : List (Nat × ScriptValue)}
    (unwritten : ∀ write ∈ writes, write.1 ≠ index) (args : List ScriptValue) :
    (writes.foldl (fun args write => args.set write.1 write.2) args)[index]? = args[index]? := by
  induction writes generalizing args with
  | nil => rfl
  | cons write rest ih =>
    rw [List.foldl_cons, ih fun other isIn => unwritten other (List.mem_cons_of_mem _ isIn),
      List.getElem?_set_ne (unwritten write List.mem_cons_self)]

theorem getElem?_foldl_set_last {before after : List (Nat × ScriptValue)} {args : List ScriptValue}
    (isLast : ∀ write ∈ after, write.1 ≠ index) (inRange : index < args.length) :
    ((before ++ (index, value) :: after).foldl
      (fun args write => args.set write.1 write.2) args)[index]? = some value := by
  rw [List.foldl_append, List.foldl_cons, getElem?_foldl_set_of_unwritten isLast,
    List.getElem?_set_self (by rwa [length_foldl_set])]

theorem foldl_max_le_iff (writes : List (Nat × ScriptValue)) (start n : Nat) :
    writes.foldl (fun length write => max length (write.1 + 1)) start ≤ n ↔
      start ≤ n ∧ ∀ write ∈ writes, write.1 < n := by
  induction writes generalizing start with
  | nil => simp
  | cons write rest ih =>
    rw [List.foldl_cons, ih, List.forall_mem_cons, Nat.max_le, Nat.succ_le_iff, and_assoc]

theorem spread_eq (writes : List (Nat × ScriptValue)) :
    spread writes = writes.foldl (fun args write => args.set write.1 write.2)
      (List.replicate (writes.foldl (fun length write => max length (write.1 + 1)) 0) .null) :=
  rfl

/-- The list ends behind the last position that is written. -/
theorem length_spread_le_iff {writes : List (Nat × ScriptValue)} {n : Nat} :
    (spread writes).length ≤ n ↔ ∀ write ∈ writes, write.1 < n := by
  rw [spread_eq, length_foldl_set, List.length_replicate, foldl_max_le_iff]
  exact and_iff_right n.zero_le

theorem getElem?_spread_last {writes before after : List (Nat × ScriptValue)}
    (isSplit : writes = before ++ (index, value) :: after)
    (isLast : ∀ write ∈ after, write.1 ≠ index) : (spread writes)[index]? = some value := by
  have isWrite : (index, value) ∈ writes := isSplit ▸ List.mem_append_right _ List.mem_cons_self
  have inRange : index < (spread writes).length :=
    length_spread_le_iff.1 (Nat.le_refl _) _ isWrite
  rw [spread_eq, length_foldl_set] at inRange
  rw [spread_eq, isSplit, getElem?_foldl_set_last isLast (isSplit ▸ inRange)]

theorem getElem?_spread_of_unwritten {writes : List (Nat × ScriptValue)}
    (inRange : index < (spread writes).length) (unwritten : ∀ write ∈ writes, write.1 ≠ index) :
    (spread writes)[index]? = some .null := by
  rw [spread_eq, length_foldl_set, List.length_replicate] at inRange
  rw [spread_eq, getElem?_foldl_set_of_unwritten unwritten, List.getElem?_replicate,
    if_pos inRange]

/-- The arguments that the entries of a dictionary stand for. -/
structure LaidOut (entries : List (String × ScriptValue)) (args : List ScriptValue) : Prop where
  empty : entries = [] → args.length = 0
  length : ∀ largest, IsGreatest {index | ∃ entry ∈ entries, Spells entry.1 index} largest →
    args.length = largest + 1
  /-- Of the entries that name an index, the last one stays. -/
  last : ∀ before key value after index, entries = before ++ (key, value) :: after →
    Spells key index → (∀ later ∈ after, ¬ Spells later.1 index) → args[index]? = some value
  /-- Where the keys ascend, as those of a dictionary do, that is the one with the greatest key; so
  an entry stays for certain if no other key names its index. -/
  greatest : entries.Pairwise (fun entry later => entry.1 < later.1) →
    ∀ key value index, (key, value) ∈ entries → Spells key index →
      (∀ other ∈ entries, key < other.1 → ¬ Spells other.1 index) → args[index]? = some value
  hole : ∀ index < args.length, (∀ entry ∈ entries, ¬ Spells entry.1 index) →
    args[index]? = some .null

section Placed

variable {position : String → Nat}

/-- Whichever numerals the keys are, the last entry that names an index is found there. -/
theorem getElem?_spread_placed {before after : List (String × ScriptValue)}
    (spelled : ∀ entry ∈ entries, Spells entry.1 (position entry.1))
    (isSplit : entries = before ++ (key, value) :: after) (spells : Spells key index)
    (isLast : ∀ later ∈ after, ¬ Spells later.1 index) :
    (spread (entries.map (placed position)))[index]? = some value := by
  have isPosition : position key = index :=
    (spelled (key, value) (isSplit ▸ List.mem_append_right _ List.mem_cons_self)).unique spells
  have isPlaced : entries.map (placed position) =
      before.map (placed position) ++ (index, value) :: after.map (placed position) := by
    rw [isSplit, List.map_append, List.map_cons, placed, isPosition]
  refine getElem?_spread_last isPlaced fun write isLater named => ?_
  obtain ⟨later, isEntry, rfl⟩ := List.mem_map.1 isLater
  have spelledLater := spelled later (by rw [isSplit]; simp [isEntry])
  exact isLast later isEntry (named ▸ spelledLater)

theorem length_spread_placed {largest : Nat}
    (spelled : ∀ entry ∈ entries, Spells entry.1 (position entry.1))
    (isGreatest : IsGreatest {index | ∃ entry ∈ entries, Spells entry.1 index} largest) :
    (spread (entries.map (placed position))).length = largest + 1 := by
  obtain ⟨⟨entry, isEntry, spells⟩, isBound⟩ := isGreatest
  apply Nat.le_antisymm
  · rw [length_spread_le_iff]
    intro write isWrite
    obtain ⟨other, isOther, rfl⟩ := List.mem_map.1 isWrite
    exact Nat.lt_succ_of_le (isBound ⟨other, isOther, spelled other isOther⟩)
  · have isWrite : placed position entry ∈ entries.map (placed position) :=
      List.mem_map_of_mem isEntry
    have inRange := length_spread_le_iff.1 (Nat.le_refl _) _ isWrite
    have isPosition : position entry.1 = largest := (spelled entry isEntry).unique spells
    exact isPosition ▸ inRange

theorem laidOut_spread (spelled : ∀ entry ∈ entries, Spells entry.1 (position entry.1)) :
    LaidOut entries (spread (entries.map (placed position))) where
  empty isEmpty := by
    rw [isEmpty]
    rfl
  length _ isGreatest := length_spread_placed spelled isGreatest
  last _ _ _ _ _ isSplit spells isLast := getElem?_spread_placed spelled isSplit spells isLast
  greatest ascending key value index isEntry spells isGreatest := by
    obtain ⟨before, after, isSplit⟩ := List.append_of_mem isEntry
    refine getElem?_spread_placed spelled isSplit spells fun later isLater => ?_
    rw [isSplit, List.pairwise_append, List.pairwise_cons] at ascending
    exact isGreatest later (by simp [isSplit, isLater]) (ascending.2.1.1 later isLater)
  hole index inRange unnamed := by
    refine getElem?_spread_of_unwritten inRange fun write isWrite named => ?_
    obtain ⟨entry, isEntry, rfl⟩ := List.mem_map.1 isWrite
    exact unnamed entry isEntry (named ▸ spelled entry isEntry)

end Placed

theorem positionalArguments_of_isIndex (areIndices : ∀ entry ∈ entries, IsIndex entry.1) :
    LaidOut entries (positionalArguments [.dict entries]) := by
  obtain ⟨position, parsed⟩ : ∃ position : String → Nat,
      ∀ entry ∈ entries, parseIndex? entry.1 = some (position entry.1) := by
    refine ⟨fun key => (parseIndex? key).getD 0, fun entry isEntry => ?_⟩
    obtain ⟨index, parsed⟩ := isIndex_iff.1 (areIndices entry isEntry)
    simp [parsed]
  have spelled := fun entry isEntry => (parseIndex?_eq_some_iff.1 (parsed entry isEntry)).1
  rw [positionalArguments, indexEntries?_of_parsed parsed]
  exact laidOut_spread spelled

theorem positionalArguments_of_not_isIndex {entry : String × ScriptValue}
    (isEntry : entry ∈ entries) (noIndex : ¬ IsIndex entry.1) :
    positionalArguments [.dict entries] = [.dict entries] := by
  rw [positionalArguments, indexEntries?_of_not_isIndex isEntry noIndex]

theorem positionalArguments_of_not_dict {args : List ScriptValue}
    (noDict : ∀ entries, args ≠ [.dict entries]) : positionalArguments args = args := by
  fun_cases positionalArguments args with
  | case1 entries => exact absurd rfl (noDict entries)
  | case2 entries => rfl
  | case3 => rfl

/-- A single dictionary of indices stands for its values laid out by them; any other list of
arguments stands for itself. -/
theorem positional_arguments_laid_out (args : List ScriptValue) :
    (∀ entries, args = [.dict entries] → (∀ entry ∈ entries, IsIndex entry.1) →
      LaidOut entries (positionalArguments args)) ∧
    ((∀ entries, args = [.dict entries] → ∃ entry ∈ entries, ¬ IsIndex entry.1) →
      positionalArguments args = args) := by
  constructor
  · rintro entries rfl areIndices
    exact positionalArguments_of_isIndex areIndices
  · intro notSpread
    by_cases isDict : ∃ entries, args = [.dict entries]
    · obtain ⟨entries, rfl⟩ := isDict
      obtain ⟨entry, isEntry, noIndex⟩ := notSpread entries rfl
      exact positionalArguments_of_not_isIndex isEntry noIndex
    · exact positionalArguments_of_not_dict fun entries isDict' => isDict ⟨entries, isDict'⟩

def mixedNumerals : List (String × ScriptValue) :=
  [("+1", .string "one"), ("0", .string "naught"), ("00", .string "zero"), ("4", .string "four")]

/-- Signs and leading zeros make no difference, and the positions between the keys are null. -/
theorem mixedNumerals_laid_out :
    (∀ entry ∈ mixedNumerals, IsIndex entry.1) ∧
      LaidOut mixedNumerals (positionalArguments [.dict mixedNumerals]) ∧
      positionalArguments [.dict mixedNumerals] =
        [.string "zero", .string "one", .null, .null, .string "four"] := by
  have one : parseIndex? "+1" = some 1 := by decide
  have naught : parseIndex? "0" = some 0 := by decide
  have zero : parseIndex? "00" = some 0 := by decide
  have four : parseIndex? "4" = some 4 := by decide
  have areIndices : ∀ entry ∈ mixedNumerals, IsIndex entry.1 := by
    simp [mixedNumerals, isIndex_iff, one, naught, zero, four]
  refine ⟨areIndices, (positional_arguments_laid_out _).1 _ rfl areIndices, ?_⟩
  simp [mixedNumerals, positionalArguments, indexEntries?, one, naught, zero, four, spread_eq,
    List.replicate]

/-- Two keys may name one index, and then the value of the first is not among the arguments. -/
theorem repeated_index_not_kept :
    ∃ entries : List (String × ScriptValue),
      entries.Pairwise (fun entry later => entry.1 < later.1) ∧
      (∀ entry ∈ entries, IsIndex entry.1) ∧
      ∃ entry ∈ entries, ∃ index, Spells entry.1 index ∧
        (positionalArguments [.dict entries])[index]? ≠ some entry.2 := by
  have zero : parseIndex? "0" = some 0 := by decide
  have doubleZero : parseIndex? "00" = some 0 := by decide
  refine ⟨[("0", .string "first"), ("00", .string "second")], by decide, ?_, ("0", .string "first"),
    by simp, 0, (parseIndex?_eq_some_iff.1 zero).1, ?_⟩
  · simp [isIndex_iff, zero, doubleZero]
  · simp [positionalArguments, indexEntries?, zero, doubleZero, spread_eq]

end Interop
