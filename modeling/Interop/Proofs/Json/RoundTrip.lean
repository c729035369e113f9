import Interop.Json.Reader
import Interop.Json.Writer

/-!
Reading gives back what was written. Inside quotes each character is written as itself or as an
escape that stands for it, so a text is read back character by character. A value is read back
whatever follows it, which carries the proof through arrays and objects: the text of an item or a
member is followed by that of the next. The fuel only has to exceed the length of the text.
-/
namespace Interop.Json

variable {cs : List Char} {fuel : Nat}

theorem hexDigit?_digitChar : ∀ d < 16, Text.hexDigit? (Nat.digitChar d) = some d := by decide

theorem readUnit_digits {n : Nat} (small : n < 0x100) (cs : List Char) :
    readUnit ('0' :: '0' :: Nat.digitChar (n / 16) :: Nat.digitChar (n % 16) :: cs) =
      some (n, cs) := by
  have zero : Text.hexDigit? '0' = some 0 := rfl
  have high := hexDigit?_digitChar (n / 16) (by omega)
  have low := hexDigit?_digitChar (n % 16) (by omega)
  simp only [readUnit, zero, high, low, Option.pure_def, Option.bind_eq_bind, Option.bind_some,
    Option.some.injEq, Prod.mk.injEq, and_true]
  omega

theorem readUnits_control {c : Char} (control : c.toNat < 0x20) (cs : List Char) :
    readUnits ('0' :: '0' :: Nat.digitChar (c.toNat / 16) :: Nat.digitChar (c.toNat % 16) :: cs) =
      some (some c, cs) := by
  have read := readUnit_digits (n := c.toNat) (by omega) cs
  have noTrail : isTrail c.toNat = false := by simp [isTrail]; omega
  have noLead : isLead c.toNat = false := by simp [isLead]; omega
  simp [readUnits, read, noTrail, noLead]

/-- A character is written as an escape that stands for it, or as itself. -/
theorem writeChar_cases (c : Char) :
    (∃ letters, writeChar c = '\\' :: letters ∧
      ∀ cs, readEscape (letters ++ cs) = some (some c, cs)) ∨
    (writeChar c = [c] ∧ c ≠ '"' ∧ c ≠ '\\' ∧ ¬c.toNat < 0x20) := by
  by_cases lettered : c ∈ ['"', '\\', '\x08', '\x0c', '\n', '\r', '\t']
  · left
    simp only [List.mem_cons, List.not_mem_nil, or_false] at lettered
    rcases lettered with rfl | rfl | rfl | rfl | rfl | rfl | rfl <;>
      exact ⟨_, rfl, fun _ => rfl⟩
  · simp only [List.mem_cons, List.not_mem_nil, or_false, not_or] at lettered
    obtain ⟨quote, backslash, others⟩ := lettered
    by_cases control : c.toNat < 0x20
    · left
      refine ⟨_, by simp [writeChar, quote, backslash, others, control]; rfl, ?_⟩
      exact readUnits_control control
    · right
      simp [writeChar, quote, backslash, others, control]

theorem readText_writeChar (c : Char) (fuel : Nat) (cs : List Char) :
    readText (fuel + 1) (writeChar c ++ cs) =
      (readText fuel cs).map (fun read => (read.1.map (c :: ·), read.2)) := by
  rcases writeChar_cases c with ⟨letters, written, escape⟩ | ⟨written, quote, backslash, printable⟩
  · rw [written, List.cons_append, readText, escape]
    simp only [Option.bind_eq_bind, Option.bind_some]
    rcases readText fuel cs with _ | ⟨_ | text, rest⟩ <;> rfl
  · rw [written, List.singleton_append, readText, if_neg printable]
    · cases readText fuel cs <;> rfl
    · exact quote
    · exact backslash

/-- What was written between quotes is read back, up to the closing one. -/
theorem readText_written (text cs : List Char) (fuel : Nat) (enough : text.length < fuel) :
    readText fuel (text.flatMap writeChar ++ '"' :: cs) = some (some text, cs) := by
  induction text generalizing fuel with
  | nil =>
    obtain ⟨fuel, rfl⟩ : ∃ n, fuel = n + 1 := ⟨fuel - 1, by omega⟩
    rfl
  | cons c text ih =>
    obtain ⟨fuel, rfl⟩ : ∃ n, fuel = n + 1 := ⟨fuel - 1, by omega⟩
    have read := ih fuel (by simpa using enough)
    rw [List.flatMap_cons, List.append_assoc, readText_writeChar, read]
    rfl

theorem length_le_written (text : List Char) : text.length ≤ (text.flatMap writeChar).length := by
  induction text with
  | nil => simp
  | cons c text ih =>
    have one : 1 ≤ (writeChar c).length := by
      rcases writeChar_cases c with ⟨letters, written, _⟩ | ⟨written, _⟩ <;> simp [written]
    simp only [List.flatMap_cons, List.length_append, List.length_cons]
    omega

theorem readString_writeString (text : String) (cs : List Char) :
    readString (writeString (some text) ++ cs) = some (some text, cs) := by
  have written : writeString (some text) ++ cs =
      '"' :: (text.toList.flatMap writeChar ++ '"' :: cs) := by
    simp [writeString, writeText]
  have long := length_le_written text.toList
  have read := readText_written text.toList cs
    ((text.toList.flatMap writeChar ++ '"' :: cs).length + 1)
    (by rw [List.length_append]; omega)
  rw [written, readString, read]
  simp

mutual

/-- All texts have characters, and there are no numbers. -/
def Plain : Json → Prop
  | .null => True
  | .boolean _ => True
  | .number _ => False
  | .string text => text.isSome
  | .array items => PlainItems items
  | .object members => PlainMembers members

def PlainItems : List Json → Prop
  | [] => True
  | item :: items => Plain item ∧ PlainItems items

def PlainMembers : List (Option String × Json) → Prop
  | [] => True
  | (key, value) :: members => key.isSome ∧ Plain value ∧ PlainMembers members

end

theorem skipBlanks_newLine (level : Nat) (cs : List Char) :
    skipBlanks (newLine level ++ cs) = skipBlanks cs := by
  have blanks : ∀ c ∈ newLine level, isBlank c = true := by
    intro c member
    rcases List.mem_cons.mp member with rfl | blank
    · rfl
    · rw [List.eq_of_mem_replicate blank]
      rfl
  exact List.dropWhile_append_of_pos blanks

theorem skipBlanks_cons {c : Char} (visible : isBlank c = false) :
    skipBlanks (c :: cs) = c :: cs := by
  simp [skipBlanks, visible]

theorem skipBlanks_blank (cs : List Char) : skipBlanks (' ' :: cs) = skipBlanks cs := rfl

/-- A value starts with a character that is neither a blank nor a closing bracket. -/
theorem write_starts {value : Json} (plain : Plain value) (level : Nat) :
    ∃ c text, write level value = c :: text ∧ isBlank c = false ∧ c ≠ ']' := by
  cases value with
  | null => exact ⟨_, _, rfl, rfl, by decide⟩
  | boolean flag => cases flag <;> exact ⟨_, _, rfl, rfl, by decide⟩
  | number digits => exact absurd plain id
  | string text => exact ⟨_, _, rfl, rfl, by decide⟩
  | array items => cases items <;> exact ⟨_, _, rfl, rfl, by decide⟩
  | object members => cases members <;> exact ⟨_, _, rfl, rfl, by decide⟩

theorem readValue_congr {cs' : List Char} (fuel : Nat) (same : skipBlanks cs = skipBlanks cs') :
    readValue fuel cs = readValue fuel cs' := by
  cases fuel with
  | zero => rfl
  | succ fuel => rw [readValue, readValue, same]

theorem readValue_array (fuel : Nat) (goesOn : ∀ rest, skipBlanks cs ≠ ']' :: rest) :
    readValue (fuel + 1) ('[' :: cs) =
      (readItems fuel (skipBlanks cs)).map (fun read => (.array read.1, read.2)) := by
  simp only [readValue, skipBlanks_cons (c := '[') rfl]
  cases readItems fuel (skipBlanks cs) <;> rfl

theorem readValue_object (fuel : Nat) (goesOn : ∀ rest, skipBlanks cs ≠ '}' :: rest) :
    readValue (fuel + 1) ('{' :: cs) =
      (readMembers fuel (skipBlanks cs)).map (fun read => (.object read.1, read.2)) := by
  simp only [readValue, skipBlanks_cons (c := '{') rfl]
  cases readMembers fuel (skipBlanks cs) <;> rfl

/-- A key starts with a quote, which is no blank. -/
theorem skipBlanks_writeString (key : Option String) (cs : List Char) :
    skipBlanks (writeString key ++ cs) = writeString key ++ cs :=
  skipBlanks_cons rfl

mutual

/-- A value is read back, whatever comes after it. -/
theorem readValue_write : ∀ (value : Json) (level fuel : Nat) (cs : List Char), Plain value →
    (write level value).length < fuel → readValue fuel (write level value ++ cs) = some (value, cs)
  | _, _, 0, _, _, enough => absurd enough (Nat.not_lt_zero _)
  | .null, _, _ + 1, _, _, _ => rfl
  | .boolean true, _, _ + 1, _, _, _ => rfl
  | .boolean false, _, _ + 1, _, _, _ => rfl
  | .number _, _, _, _, plain, _ => absurd plain id
  | .string none, _, _, _, plain, _ => absurd plain Bool.false_ne_true
  | .string (some text), _, _ + 1, cs, _, _ => by
    change (readString (writeString (some text) ++ cs)).bind _ = _
    rw [readString_writeString]
    rfl
  | .array [], _, _ + 1, _, _, _ => rfl
  | .array (item :: items), level, fuel + 1, cs, plain, enough => by
    simp only [write, List.cons_append, List.append_assoc, List.nil_append, List.length_cons,
      List.length_append] at enough ⊢
    obtain ⟨fuel, rfl⟩ : ∃ n, fuel = n + 1 := ⟨fuel - 1, by omega⟩
    have first := readValue_write item (level + 1) fuel
      (writeItems (level + 1) items ++ (newLine level ++ ']' :: cs)) plain.1 (by omega)
    have all := readItems_written items (level + 1) plain.2 first (by omega)
    obtain ⟨c, text, written, visible, goesOn⟩ := write_starts plain.1 (level + 1)
    rw [readValue_array, skipBlanks_newLine, written, List.cons_append, skipBlanks_cons visible,
      ← List.cons_append, ← written]
    · rw [all]
      rfl
    · rw [skipBlanks_newLine, written, List.cons_append, skipBlanks_cons visible]
      exact fun rest closes => goesOn (List.cons.inj closes).1
  | .object [], _, _ + 1, _, _, _ => rfl
  | .object ((none, _) :: _), _, _, _, plain, _ => absurd plain.1 Bool.false_ne_true
  | .object ((some key, value) :: members), level, fuel + 1, cs, plain, enough => by
    simp only [write, List.cons_append, List.append_assoc, List.nil_append, List.length_cons,
      List.length_append] at enough ⊢
    obtain ⟨fuel, rfl⟩ : ∃ n, fuel = n + 1 := ⟨fuel - 1, by omega⟩
    have named := readString_writeString key
      (':' :: ' ' :: (write (level + 1) value ++
        (writeMembers (level + 1) members ++ (newLine level ++ '}' :: cs))))
    have first := readValue_write value (level + 1) fuel
      (writeMembers (level + 1) members ++ (newLine level ++ '}' :: cs)) plain.2.1 (by omega)
    rw [← readValue_congr fuel (skipBlanks_blank _)] at first
    rw [← skipBlanks_writeString] at named
    have all := readMembers_written members (level + 1) plain.2.2 named first (by omega)
    rw [readValue_object, skipBlanks_newLine, skipBlanks_writeString]
    · rw [all]
      rfl
    · rw [skipBlanks_newLine, skipBlanks_writeString]
      exact fun rest closes => absurd (List.cons.inj closes).1 (by decide)

/-- After the first item the others are read, up to the closing bracket. -/
theorem readItems_written : ∀ (items : List Json) (level : Nat) {item : Json}
    {start cs : List Char} {outer fuel : Nat}, PlainItems items →
    readValue fuel start = some (item, writeItems level items ++ (newLine outer ++ ']' :: cs)) →
    (writeItems level items).length < fuel →
    readItems (fuel + 1) start = some (item :: items, cs)
  | [], _, _, _, _, _, _, _, read, _ => by
    rw [readItems, read]
    simp only [Option.bind_eq_bind, Option.bind_some, writeItems, List.nil_append,
      skipBlanks_newLine, skipBlanks_cons (c := ']') rfl]
    rfl
  | next :: items, level, item, start, cs, outer, fuel, plain, read, enough => by
    simp only [writeItems, List.cons_append, List.append_assoc, List.length_cons,
      List.length_append] at read enough
    obtain ⟨fuel, rfl⟩ : ∃ n, fuel = n + 1 := ⟨fuel - 1, by omega⟩
    have second := readValue_write next level fuel
      (writeItems level items ++ (newLine outer ++ ']' :: cs)) plain.1 (by omega)
    rw [← readValue_congr fuel (skipBlanks_newLine level _)] at second
    have others := readItems_written items level plain.2 second (by omega)
    rw [readItems, read]
    simp only [Option.bind_eq_bind, Option.bind_some, skipBlanks_cons (c := ',') rfl, others]
    rfl

/-- After the first member the others are read, up to the closing brace. -/
theorem readMembers_written : ∀ (members : List (Option String × Json)) (level : Nat)
    {key : Option String} {value : Json} {start after cs : List Char} {outer fuel : Nat},
    PlainMembers members →
    readString (skipBlanks start) = some (key, ':' :: after) →
    readValue fuel after =
      some (value, writeMembers level members ++ (newLine outer ++ '}' :: cs)) →
    (writeMembers level members).length < fuel →
    readMembers (fuel + 1) start = some ((key, value) :: members, cs)
  | [], _, _, _, _, _, _, _, _, _, named, read, _ => by
    rw [readMembers, named]
    simp only [Option.bind_eq_bind, Option.bind_some, skipBlanks_cons (c := ':') rfl, read,
      writeMembers, List.nil_append, skipBlanks_newLine, skipBlanks_cons (c := '}') rfl]
    rfl
  | (none, _) :: _, _, _, _, _, _, _, _, _, plain, _, _, _ => absurd plain.1 Bool.false_ne_true
  | (some next, value') :: members, level, key, value, start, after, cs, outer, fuel, plain, named,
      read, enough => by
    simp only [writeMembers, List.cons_append, List.append_assoc, List.nil_append,
      List.length_cons, List.length_append] at read enough
    obtain ⟨fuel, rfl⟩ : ∃ n, fuel = n + 1 := ⟨fuel - 1, by omega⟩
    have named' := readString_writeString next
      (':' :: ' ' :: (write level value' ++
        (writeMembers level members ++ (newLine outer ++ '}' :: cs))))
    rw [← skipBlanks_writeString, ← skipBlanks_newLine level] at named'
    have second := readValue_write value' level fuel
      (writeMembers level members ++ (newLine outer ++ '}' :: cs)) plain.2.1 (by omega)
    rw [← readValue_congr fuel (skipBlanks_blank _)] at second
    have others := readMembers_written members level plain.2.2 named' second (by omega)
    rw [readMembers, named]
    simp only [Option.bind_eq_bind, Option.bind_some, skipBlanks_cons (c := ':') rfl, read,
      skipBlanks_cons (c := ',') rfl, others]
    rfl

end

/-- A document of texts, flags, arrays and objects is read back as it was. -/
theorem parse?_render {value : Json} (plain : Plain value) : parse? value.render = some value := by
  have written : value.render.toList = write 0 value := String.toList_ofList
  have read := readValue_write value 0 ((write 0 value).length + 1) [] plain (by omega)
  rw [List.append_nil] at read
  rw [parse?, written, read]
  rfl

end Interop.Json
