import Interop.Proofs.Json.RoundTrip
import Interop.Proofs.Toml.Embedding
import Interop.Toml.Writer

/-!
Written tables are read back. A word that is written for a value is read as that value: an integer
has digits without a zero in front, and none is written that is beyond the bounds of reading. So the
lines of a table give it the entries that it was written with, and among any other tables, of which
none bears its name, it comes out of the document with these entries.
-/
namespace Interop.Toml

variable {cs rest word : List Char} {fuel depth : Nat} {n : Int} {found : Value} {name : String}
  {entries : List (String × Value)} {text : String}

theorem isDigits_of_all (some : cs ≠ []) (digits : ∀ c ∈ cs, c.isDigit = true) :
    isDigits Char.isDigit cs = true := by
  fun_induction isDigits Char.isDigit cs with
  | case1 => exact absurd rfl some
  | case2 c => exact digits c List.mem_cons_self
  | case3 c rest ih =>
    have underscore := digits '_' (by simp)
    cases underscore
  | case4 c rest several _ ih =>
    rw [Bool.and_eq_true]
    refine ⟨digits c List.mem_cons_self, ih ?_ ?_⟩
    · rintro rfl
      exact several rfl
    · intro d member
      exact digits d (List.mem_cons_of_mem c member)

/-- Digits as they are written show their number. -/
theorem digitsValue_toDigits (n : Nat) : digitsValue 10 (Nat.toDigits 10 n) = n := by
  induction n using Nat.strong_induction_on with
  | _ n ih =>
    rw [Nat.toDigits_eq_if (by decide)]
    split
    · next small =>
      have digit := Json.hexDigit?_digitChar n (by omega)
      simp [digitsValue, digit]
    · next large =>
      have digit := Json.hexDigit?_digitChar (n % 10) (by omega)
      have lower := ih (n / 10) (by omega)
      unfold digitsValue at lower ⊢
      rw [List.filterMap_append, List.foldl_append, lower]
      simp [digit]
      omega

theorem isDigit_toDigits (n : Nat) : ∀ c ∈ Nat.toDigits 10 n, c.isDigit = true := by
  intro c member
  exact Nat.isDigit_of_mem_toDigits (by decide) (by decide) member

/-- No number but zero starts with a zero. -/
theorem head?_toDigits {n : Nat} (positive : 0 < n) : (Nat.toDigits 10 n).head? ≠ some '0' := by
  induction n using Nat.strong_induction_on with
  | _ n ih =>
    rw [Nat.toDigits_eq_if (by decide)]
    split
    · next small =>
      have digit : ∀ d < 10, 0 < d → Nat.digitChar d ≠ '0' := by decide
      simpa using digit n small positive
    · next large =>
      have front := ih (n / 10) (by omega) (by omega)
      obtain ⟨c, digits, start⟩ := List.exists_cons_of_ne_nil (Nat.toDigits_ne_nil (n := n / 10))
      rw [start] at front ⊢
      exact front

theorem isDecimal_toDigits (n : Nat) : isDecimal (Nat.toDigits 10 n) = true := by
  rcases Nat.eq_zero_or_pos n with rfl | positive
  · rfl
  · have front := head?_toDigits positive
    unfold isDecimal
    split
    · rfl
    · next start =>
      rw [start] at front
      exact absurd rfl front
    · exact isDigits_of_all Nat.toDigits_ne_nil (isDigit_toDigits n)

theorem splitSign_of_digits (digits : ∀ c ∈ cs, c.isDigit = true) : splitSign cs = (false, cs) := by
  unfold splitSign
  split
  · cases digits '-' List.mem_cons_self
  · cases digits '+' List.mem_cons_self
  · rfl

theorem integer?_digits {n : Nat} (bound : n ≤ maxInteger) :
    integer? (Nat.toDigits 10 n) = some (n : Int) := by
  have digits := isDigit_toDigits n
  unfold integer?
  split
  · next start => cases digits 'x' (by simp [start])
  · next start => cases digits 'o' (by simp [start])
  · next start => cases digits 'b' (by simp [start])
  · simp [splitSign_of_digits digits, isDecimal_toDigits, digitsValue_toDigits, bound]

theorem integer?_minus {n : Nat} (bound : n ≤ maxInteger + 1) :
    integer? ('-' :: Nat.toDigits 10 n) = some (-(n : Int)) := by
  simp [integer?, splitSign, isDecimal_toDigits, digitsValue_toDigits, bound]

theorem integer?_intText (inRange : isInteger n = true) :
    integer? (Decimal.intText n).toList = some n := by
  simp only [isInteger, Bool.and_eq_true, decide_eq_true_eq] at inRange
  unfold Decimal.intText
  split
  · next negative =>
    have sign : ("-" ++ Decimal.natText n.natAbs).toList = '-' :: Nat.toDigits 10 n.natAbs := by
      simp [Decimal.natText]
    rw [sign, integer?_minus (by omega)]
    exact congrArg some (by omega)
  · next positive =>
    rw [Decimal.natText, String.toList_ofList, integer?_digits (by omega)]
    exact congrArg some (by omega)

theorem wordValue?_of_integer? (read : integer? word = some n) :
    wordValue? word = some (.integer n) := by
  have noTrue : (word == "true".toList) = false := by
    rw [beq_eq_false_iff_ne]
    rintro rfl
    cases read
  have noFalse : (word == "false".toList) = false := by
    rw [beq_eq_false_iff_ne]
    rintro rfl
    cases read
  rw [wordValue?, noTrue, noFalse, read]
  rfl

/-- The word of a value is read as the value. -/
theorem wordValue?_word? {word : String} (written : found.word? = some word) :
    wordValue? word.toList = some found := by
  cases found with
  | integer n =>
    rw [Value.word?] at written
    split at written
    · next inRange =>
      cases written
      exact wordValue?_of_integer? (integer?_intText inRange)
    · cases written
  | boolean b =>
    cases written
    cases b <;> rfl
  | _ => cases written

theorem isWordChar_word? {word : String} (written : found.word? = some word) :
    word.toList ≠ [] ∧ word.toList.all isWordChar = true := by
  have digits : ∀ n, (Decimal.natText n).toList ≠ [] ∧
      (Decimal.natText n).toList.all isWordChar = true := by
    intro n
    rw [Decimal.natText, String.toList_ofList, List.all_eq_true]
    refine ⟨Nat.toDigits_ne_nil, ?_⟩
    intro d member
    simp [isWordChar, Char.isAlphanum, isDigit_toDigits _ d member]
  cases found with
  | integer n =>
    rw [Value.word?] at written
    split at written
    · cases written
      unfold Decimal.intText
      split
      · rw [String.toList_append]
        exact ⟨by simp, List.all_append.trans (by rw [(digits _).2]; rfl)⟩
      · exact digits _
    · cases written
  | boolean b =>
    cases written
    cases b <;> exact ⟨by decide, rfl⟩
  | _ => cases written

/-- A word has none of the characters that have a meaning of their own. -/
theorem ne_of_class {p : Char → Bool} {c d : Char} (inside : p c = true) (outside : p d = false) :
    c ≠ d := by
  rintro rfl
  rw [inside] at outside
  cases outside

theorem skipBlanks_visible {c : Char} (space : c ≠ ' ') (tab : c ≠ '\t') (rest : List Char) :
    skipBlanks (c :: rest) = c :: rest :=
  List.dropWhile_cons_of_neg (by simp [isBlank, space, tab])

theorem key_bare (nonempty : word ≠ []) (bare : ∀ c ∈ word, isBareKey c = true)
    (stops : rest.head?.all (fun c => !isBareKey c) = true)
    (single : (skipBlanks rest).head? ≠ some '.') :
    key (word ++ rest) = some ([String.ofList word], skipBlanks rest) := by
  obtain ⟨c, word, rfl⟩ := List.exists_cons_of_ne_nil nonempty
  have first := bare c List.mem_cons_self
  have blanks : skipBlanks (c :: word ++ rest) = c :: word ++ rest :=
    skipBlanks_visible (ne_of_class first rfl) (ne_of_class first rfl) _
  have taken : rest.takeWhile isBareKey = [] ∧ rest.dropWhile isBareKey = rest := by
    cases rest with
    | nil => exact ⟨rfl, rfl⟩
    | cons d rest =>
      have other : isBareKey d = false := by simpa using stops
      exact ⟨List.takeWhile_cons_of_neg (by simp [other]),
        List.dropWhile_cons_of_neg (by simp [other])⟩
  have part : keyPart (c :: word ++ rest) = some (String.ofList (c :: word), rest) := by
    rw [keyPart_bare, List.takeWhile_append_of_pos bare, List.dropWhile_append_of_pos bare, taken.1,
      taken.2, List.append_nil, if_neg (List.cons_ne_nil c word)]
    · exact fun quote => ne_of_class first rfl (Option.some.inj quote)
    · exact fun quote => ne_of_class first rfl (Option.some.inj quote)
  rw [key, List.length_append, List.length_cons, Nat.add_right_comm, keyParts, blanks, part]
  simp only [Option.bind_eq_bind, Option.bind_some]
  split
  · next dot =>
    rw [dot] at single
    exact absurd rfl single
  · rfl

theorem value_bare {found : Value} (nonempty : word ≠ [])
    (chars : ∀ c ∈ word, isWordChar c = true) (reads : wordValue? word = some found) :
    value (fuel + 1) depth (word ++ '\n' :: rest) = some (found, '\n' :: rest) := by
  have taken : (word ++ '\n' :: rest).takeWhile isWordChar = word := by
    rw [List.takeWhile_append_of_pos chars, List.takeWhile_cons_of_neg (by decide), List.append_nil]
  have left : (word ++ '\n' :: rest).dropWhile isWordChar = '\n' :: rest := by
    rw [List.dropWhile_append_of_pos chars, List.dropWhile_cons_of_neg (by decide)]
  have whole : Toml.word (word ++ '\n' :: rest) = (word, '\n' :: rest) := by
    rw [word_of_no_time, taken, left]
    rintro more ⟨_, blank, _⟩
    rw [left] at blank
    cases blank
  obtain ⟨c, word, rfl⟩ := List.exists_cons_of_ne_nil nonempty
  have first := chars c List.mem_cons_self
  rw [List.cons_append] at whole ⊢
  rw [value_word, whole, reads]
  · rfl
  all_goals
    rintro rfl
    cases first

/-- A header as it is written. -/
theorem readsLine_header (nonempty : word ≠ []) (bare : word.all isBareKey = true) :
    ReadsLine ('[' :: (word ++ ']' :: '\n' :: rest)) (some (.table [String.ofList word])) rest := by
  have bare := List.all_eq_true.mp bare
  have header : key (word ++ ']' :: '\n' :: rest) =
      some ([String.ofList word], ']' :: '\n' :: rest) :=
    key_bare nonempty bare rfl (by simp [skipBlanks, isBlank])
  have ending : restOfLine ('\n' :: rest) = some rest := rfl
  obtain ⟨c, word, rfl⟩ := List.exists_cons_of_ne_nil nonempty
  have first := bare c List.mem_cons_self
  refine .statement rfl (by decide) (by decide) (by simp) (.table ?_ header ending)
  exact fun bracket => ne_of_class first rfl (Option.some.inj bracket)

/-- A setting as it is written. -/
theorem readsLine_setting {name : List Char} {found : Value} (named : name ≠ [])
    (bare : name.all isBareKey = true) (nonempty : word ≠ [])
    (chars : word.all isWordChar = true) (reads : wordValue? word = some found) :
    ReadsLine (name ++ ' ' :: '=' :: ' ' :: (word ++ '\n' :: rest))
      (some (.setting [String.ofList name] found)) rest := by
  have bare := List.all_eq_true.mp bare
  have chars := List.all_eq_true.mp chars
  have left : key (name ++ ' ' :: '=' :: ' ' :: (word ++ '\n' :: rest)) =
      some ([String.ofList name], '=' :: ' ' :: (word ++ '\n' :: rest)) :=
    key_bare named bare rfl (by simp [skipBlanks, isBlank])
  have ending : restOfLine ('\n' :: rest) = some rest := rfl
  obtain ⟨c, name, rfl⟩ := List.exists_cons_of_ne_nil named
  have first := bare c List.mem_cons_self
  have blanks := skipBlanks_visible (ne_of_class first rfl) (ne_of_class first rfl)
    (name ++ ' ' :: '=' :: ' ' :: (word ++ '\n' :: rest))
  refine .statement blanks (ne_of_class first rfl) (ne_of_class first rfl)
    (fun both => ne_of_class first rfl both.1) (.setting ?_ left ?_ ending)
  · exact fun bracket => ne_of_class first rfl (Option.some.inj bracket)
  · obtain ⟨d, word, rfl⟩ := List.exists_cons_of_ne_nil nonempty
    have second := chars d List.mem_cons_self
    change value _ _ (skipBlanks (d :: word ++ '\n' :: rest)) = _
    rw [List.cons_append, skipBlanks_visible (ne_of_class second rfl) (ne_of_class second rfl)]
    exact value_bare nonempty chars reads

/-- The table that has these settings. -/
def Node.ofSettings (entries : List (String × Value)) : Node :=
  .mk (entries.map fun entry => (entry.1, .value entry.2)) false false

theorem addValue_ofSettings (new : name ∉ entries.map Prod.fst) :
    (Node.ofSettings entries).addValue [] name found =
      some (.ofSettings (entries ++ [(name, found)])) := by
  have absent : (Node.ofSettings entries).get? name = none := by
    rw [Node.get?, lookup_eq_none_iff_names]
    simpa [Node.ofSettings, Node.entries] using new
  have plain : ((Node.ofSettings entries).dotted == ([] : List String).isEmpty) = false := rfl
  rw [Node.addValue, Node.change, plain, absent, Node.put, absent]
  simp [Node.ofSettings, Node.entries, Node.isImplicit, Node.dotted]

theorem finish_ofSettings (entries : List (String × Value)) :
    (Node.ofSettings entries).finish = entries := by
  rw [Node.finish_eq, Node.ofSettings, Node.entries]
  induction entries with
  | nil => rfl
  | cons entry rest ih => rw [List.map_cons, finishEntries, ih, Item.finish]

/-- What the lines of entries are. -/
theorem writeEntries?_cons (written : writeEntries? ((name, found) :: entries) = some text) :
    ∃ word lines, found.word? = some word ∧ writeEntries? entries = some lines ∧
      isBareName name = true ∧ text = name ++ " = " ++ word ++ "\n" ++ lines := by
  obtain ⟨word, ofValue, written⟩ := Option.bind_eq_some_iff.mp written
  obtain ⟨lines, ofRest, written⟩ := Option.bind_eq_some_iff.mp written
  split at written
  · next bare =>
    cases written
    exact ⟨word, lines, ofValue, ofRest, bare, rfl⟩
  · cases written

/-- A table is written if no name needs quotes and every value is a word. -/
theorem isSome_writeTable : (writeTable? name entries).isSome = true ↔ isBareName name = true ∧
    ∀ entry ∈ entries, isBareName entry.1 = true ∧ entry.2.word?.isSome = true := by
  have lines : (writeEntries? entries).isSome = true ↔
      ∀ entry ∈ entries, isBareName entry.1 = true ∧ entry.2.word?.isSome = true := by
    induction entries with
    | nil => simp [writeEntries?]
    | cons entry rest ih =>
      rw [List.forall_mem_cons, ← ih, writeEntries?]
      cases entry.2.word? <;> cases writeEntries? rest <;> cases isBareName entry.1 <;> simp
  rw [← lines, writeTable?]
  cases writeEntries? entries <;> cases isBareName name <;> simp

theorem isBareName_iff : isBareName name = true ↔
    name.toList ≠ [] ∧ name.toList.all isBareKey = true := by
  simp [isBareName]

/-- The lines of entries add them to the open table, one after the other. -/
theorem lines_writeEntries (done : List (String × Value)) {root : Node} {path : List String}
    (written : writeEntries? entries = some text)
    (distinct : ((done ++ entries).map Prod.fst).Nodup) (tail : List Char) (more : Nat) :
    lines (entries.length + more) ⟨root, .ofSettings done, path, false⟩ (text.toList ++ tail) =
      lines more ⟨root, .ofSettings (done ++ entries), path, false⟩ tail := by
  induction entries generalizing done text with
  | nil =>
    cases written
    rw [List.length_nil, Nat.zero_add, List.append_nil]
    rfl
  | cons entry entries ih =>
    obtain ⟨name, found⟩ := entry
    obtain ⟨word, below, ofValue, ofRest, bare, rfl⟩ := writeEntries?_cons written
    obtain ⟨named, bare⟩ := isBareName_iff.mp bare
    obtain ⟨nonempty, chars⟩ := isWordChar_word? ofValue
    have shape : (name ++ " = " ++ word ++ "\n" ++ below).toList ++ tail =
        name.toList ++ ' ' :: '=' :: ' ' :: (word.toList ++ '\n' :: (below.toList ++ tail)) := by
      simp [String.toList_append]
    have new : name ∉ done.map Prod.fst := by
      rw [List.map_append, List.map_cons] at distinct
      exact fun member => (List.nodup_append.mp distinct).2.2 name member name (by simp) rfl
    have reads : ReadsLine
        (name.toList ++ ' ' :: '=' :: ' ' :: (word.toList ++ '\n' :: (below.toList ++ tail))) _ _ :=
      readsLine_setting named bare nonempty chars (wordValue?_word? ofValue)
    have passed : Reading.pass ⟨root, .ofSettings done, path, false⟩
        (some (.setting [String.ofList name.toList] found)) =
        some ⟨root, .ofSettings (done ++ [(name, found)]), path, false⟩ := by
      rw [String.ofList_toList]
      simp [Reading.pass, Reading.follow, addValue_ofSettings new]
    rw [shape, List.length_cons, Nat.add_right_comm, lines_step reads passed]
    have others := ih (done ++ [(name, found)]) ofRest (by simpa using distinct)
    rw [others, List.append_assoc, List.singleton_append]

theorem length_le_writeEntries (written : writeEntries? entries = some text) :
    entries.length ≤ text.toList.length := by
  induction entries generalizing text with
  | nil => exact Nat.zero_le _
  | cons entry entries ih =>
    obtain ⟨word, below, _, ofRest, _, rfl⟩ := writeEntries?_cons written
    have shorter := ih ofRest
    simp only [String.toList_append, List.length_append, List.length_cons]
    have lineEnd : "\n".toList.length = 1 := rfl
    omega

theorem toList_writeTable (written : writeTable? name entries = some text) :
    ∃ lines, writeEntries? entries = some lines ∧ isBareName name = true ∧
      ∀ tail, text.toList ++ tail =
        '[' :: (name.toList ++ ']' :: '\n' :: (lines.toList ++ tail)) := by
  obtain ⟨lines, ofEntries, written⟩ := Option.bind_eq_some_iff.mp written
  split at written
  · next bare =>
    cases written
    exact ⟨lines, ofEntries, bare, fun tail => by simp [String.toList_append]⟩
  · cases written

/-- The lines of a table open it and give it its entries. -/
theorem gives_writeTable (written : writeTable? name entries = some text)
    (distinct : (entries.map Prod.fst).Nodup) :
    Gives text.toList name (.ofSettings entries) := by
  obtain ⟨below, ofEntries, bare, shape⟩ := toList_writeTable written
  obtain ⟨named, bare⟩ := isBareName_iff.mp bare
  have counted := length_le_writeEntries ofEntries
  refine ⟨entries.length + 1, ?_, ?_⟩
  · rw [← List.append_nil text.toList, shape]
    simp only [List.length_cons, List.length_append]
    omega
  intro reading root closed free tail more
  have opened : reading.pass (some (.table [String.ofList name.toList])) =
      some ⟨root, .ofSettings [], [name], false⟩ := by
    rw [String.ofList_toList]
    have opens : Reading.Opens root ([] ++ [name]) ⟨root, .empty, [name], false⟩ := .new rfl free
    exact Reading.openTable_eq_some_iff.mpr ⟨root, closed, opens⟩
  rw [shape, Nat.add_right_comm, lines_step (readsLine_header named bare) opened]
  exact lines_writeEntries [] ofEntries distinct tail more

theorem resolve?_word? {word : String} (written : found.word? = some word) :
    found.resolve? = some found := by
  cases found with
  | integer n => rfl
  | boolean b => rfl
  | _ => cases written

theorem resolveEntries?_written (written : writeEntries? entries = some text) :
    resolveEntries? entries = some entries := by
  induction entries generalizing text with
  | nil => rfl
  | cons entry entries ih =>
    obtain ⟨word, below, ofValue, ofRest, _⟩ := writeEntries?_cons written
    simp [resolveEntries?, resolve?_word? ofValue, ih ofRest]

/-- No name without quotes is the reserved one, so a written table stands for itself. -/
theorem resolve?_written (written : writeEntries? entries = some text) :
    (Value.table entries).resolve? = some (.table entries) := by
  cases entries with
  | nil => rfl
  | cons entry entries =>
    obtain ⟨word, below, ofValue, ofRest, bare, _⟩ := writeEntries?_cons written
    have unreserved : entry.1 ≠ datetimeName := by
      rintro reserved
      rw [reserved] at bare
      exact absurd bare (by decide)
    simp [Value.resolve?, unreserved, resolve?_word? ofValue, resolveEntries?_written ofRest]

/-- A written table comes out of a document as it was, whatever stands before and after it. -/
theorem lookup_parse?_writeTable {before after : String}
    (written : writeTable? name entries = some text) (distinct : (entries.map Prod.fst).Nodup)
    (surrounds : Surrounds name before after) :
    ∃ document, parse? (before ++ text ++ after) = some document ∧
      document.lookup name = some (.table entries) := by
  obtain ⟨lines, ofEntries, _, shape⟩ := toList_writeTable written
  have bracket : text.toList.head? = some '[' := by
    rw [← List.append_nil text.toList, shape]
    rfl
  refine lookup_parse?_of_gives (gives_writeTable written distinct) bracket surrounds ?_
  rw [Item.finish, finish_ofSettings]
  exact resolve?_written ofEntries

end Interop.Toml
