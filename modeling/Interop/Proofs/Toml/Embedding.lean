import Interop.Proofs.Toml.Insertion

/-!
A table among others. If a document is cut before a header and the lines of a table are put between
the two parts, then the document reads as before, with that table as one more entry. The part before
has to be a document of whole lines, for the cut could lie within a text or an array; and the part
after has to start with a header, for other lines would go to the new table.
-/
namespace Interop.Toml

variable {α : Type} {name : String} {item : Item} {node node' : Node}
  {reading reading' final : Reading} {statement : Statement} {fuel fuel' : Nat}
  {cs rest : List Char}

/-- What is left after blanks, comments and line ends. -/
def significant (cs : List Char) : List Char := skipLines cs.length cs

/-- Whether the first line that says something is a header, if there is any. -/
def startsWithHeader (cs : List Char) : Bool := (significant cs).head?.all (· == '[')

/-- Once the fuel covers the length, more of it changes nothing. -/
theorem skipLines_eq (enough : cs.length ≤ fuel) : skipLines fuel cs = significant cs := by
  have same : ∀ n m (cs : List Char), cs.length ≤ n → n ≤ m → skipLines m cs = skipLines n cs := by
    intro n
    induction n with
    | zero =>
      intro m cs short _
      cases List.length_eq_zero_iff.mp (Nat.le_zero.mp short)
      cases m <;> rfl
    | succ n ih =>
      intro m cs short more
      obtain ⟨m, rfl⟩ : ∃ k, m = k + 1 := ⟨m - 1, by omega⟩
      have shorter : (skipBlanks cs).length ≤ cs.length :=
        (List.dropWhile_suffix isBlank).length_le
      rcases start_cases (skipBlanks cs) with start | ⟨rest, start⟩ | ⟨rest, start⟩ |
        ⟨rest, start⟩ | ⟨c, rest, start, feed, hash, single⟩
      · rw [skipLines, skipLines, start]
      · rw [start] at shorter
        rw [skipLines_feed start, skipLines_feed start]
        exact ih m rest (by simp at shorter; omega) (by omega)
      · rw [start] at shorter
        rw [skipLines_return start, skipLines_return start]
        exact ih m rest (by simp at shorter; omega) (by omega)
      · rw [start] at shorter
        have length := (rest.dropWhile_suffix isPlain).length_le
        rw [skipLines_comment start, skipLines_comment start]
        exact ih m _ (by simp at shorter; omega) (by omega)
      · rw [skipLines_other start feed hash single, skipLines_other start feed hash single]
  exact same cs.length fuel cs (Nat.le_refl _) enough

/-- Something is left of the characters after blanks, so there is fuel for one line. -/
theorem significant_succ {behind : List Char} {c : Char} (start : skipBlanks cs = c :: behind) :
    ∃ fuel, behind.length ≤ fuel ∧ significant cs = skipLines (fuel + 1) cs := by
  have shorter : (skipBlanks cs).length ≤ cs.length := (List.dropWhile_suffix isBlank).length_le
  rw [start, List.length_cons] at shorter
  exact ⟨cs.length - 1, by omega, by rw [significant]; congr 1; omega⟩

theorem significant_feed (start : skipBlanks cs = '\n' :: rest) :
    significant cs = significant rest := by
  obtain ⟨fuel, enough, more⟩ := significant_succ start
  rw [more, skipLines_feed start, skipLines_eq enough]

theorem significant_crlf (start : skipBlanks cs = '\r' :: '\n' :: rest) :
    significant cs = significant rest := by
  obtain ⟨fuel, enough, more⟩ := significant_succ start
  rw [more, skipLines_return start, skipLines_eq (Nat.le_of_succ_le enough)]

theorem significant_of_blank (reads : ReadsLine cs none rest) :
    significant cs = significant rest := by
  cases reads with
  | feed start => exact significant_feed start
  | crlf start => exact significant_crlf start
  | comment start ending =>
    obtain ⟨fuel, enough, more⟩ := significant_succ start
    have length := List.length_dropWhile_le isPlain
    rw [more, skipLines_comment start, skipLines_eq ((length _).trans enough)]
    unfold lineEnd at ending
    split at ending
    · next ended => rw [ended, Option.some.inj ending]
    · next ended =>
      rw [ended, ← Option.some.inj ending]
      exact significant_feed rfl
    · next ended =>
      rw [ended, ← Option.some.inj ending]
      exact significant_crlf rfl
    · cases ending

theorem significant_of_statement (reads : ReadsLine cs (some statement) rest) :
    Reads (significant cs) statement rest := by
  cases reads with
  | statement start feed hash single reads =>
    obtain ⟨fuel, _, more⟩ := significant_succ start
    rw [more, skipLines_other start feed hash single]
    exact reads

theorem Reads.isHeader (reads : Reads cs statement rest)
    (bracket : cs.head?.all (· == '[') = true) : statement.IsHeader := by
  cases reads with
  | arrayTable header ending => trivial
  | table single header ending => trivial
  | setting plain name given ending =>
    rcases cs with _ | ⟨c, cs⟩
    · cases name
    · exact absurd (congrArg some (beq_iff_eq.mp bracket)) plain

theorem ClosesBeside.lines (closes : ClosesBeside name item reading reading')
    (header : startsWithHeader cs = true) (enough : fuel ≤ fuel')
    (read : lines fuel reading cs = some final) (untouched : ¬final.Mentions name) :
    ∃ final', lines fuel' reading' cs = some final' ∧ ClosesBeside name item final final' := by
  induction fuel generalizing fuel' cs with
  | zero => cases read
  | succ fuel ih =>
    obtain ⟨fuel', rfl⟩ : ∃ n, fuel' = n + 1 := ⟨fuel' - 1, by omega⟩
    rcases lines_cases read with ⟨blank, rfl⟩ | ⟨content, rest, between, reads, passed, read⟩
    · refine ⟨reading', ?_, closes⟩
      rw [Toml.lines, blank]
    · cases content with
      | none =>
        cases passed
        rw [lines_step reads rfl]
        rw [startsWithHeader, significant_of_blank reads] at header
        exact ih header (by omega) read
      | some statement =>
        have isHeader := (significant_of_statement reads).isHeader header
        obtain ⟨between', passed, beside⟩ := closes.follow isHeader passed fun mentions =>
          untouched (mentions.lines read)
        rw [lines_step reads passed]
        obtain ⟨final', read, beside⟩ := beside.lines (Nat.le_of_succ_le_succ enough) read untouched
        exact ⟨final', read, beside.closes⟩

theorem finishEntries_append (front back : List (String × Item)) :
    finishEntries (front ++ back) = finishEntries front ++ finishEntries back := by
  induction front with
  | nil => rfl
  | cons entry front ih =>
    obtain ⟨key, item⟩ := entry
    rw [List.cons_append, finishEntries, finishEntries, ih, List.cons_append]

theorem resolveEntries?_append (front back : List (String × Value)) :
    resolveEntries? (front ++ back) = (resolveEntries? front).bind fun front =>
      (resolveEntries? back).map (front ++ ·) := by
  induction front with
  | nil => simp [resolveEntries?]
  | cons entry front ih =>
    obtain ⟨key, value⟩ := entry
    rw [List.cons_append, resolveEntries?, resolveEntries?, ih]
    cases value.resolve? <;> cases resolveEntries? front <;> cases resolveEntries? back <;> simp

theorem Node.finish_eq (node : Node) : node.finish = finishEntries node.entries := by
  cases node
  rfl

theorem names_finishEntries (entries : List (String × Item)) :
    (finishEntries entries).map Prod.fst = entries.map Prod.fst := by
  induction entries with
  | nil => rfl
  | cons entry rest ih =>
    obtain ⟨key, item⟩ := entry
    rw [finishEntries, List.map_cons, List.map_cons, ih]

theorem names_resolveEntries? {entries resolved : List (String × Value)}
    (read : resolveEntries? entries = some resolved) :
    resolved.map Prod.fst = entries.map Prod.fst := by
  induction entries generalizing resolved with
  | nil => cases read; rfl
  | cons entry rest ih =>
    obtain ⟨key, value⟩ := entry
    rw [resolveEntries?] at read
    obtain ⟨first, _, read⟩ := Option.bind_eq_some_iff.mp read
    obtain ⟨others, below, read⟩ := Option.bind_eq_some_iff.mp read
    cases read
    rw [List.map_cons, List.map_cons, ih below]

theorem lookup_eq_none_iff_names (entries : List (String × α)) :
    entries.lookup name = none ↔ name ∉ entries.map Prod.fst := by
  induction entries with
  | nil => simp
  | cons entry rest ih =>
    obtain ⟨key, value⟩ := entry
    rw [lookup_entry]
    by_cases same : name = key <;> simp [same, ih]

/-- A finished document has the names of its tables. -/
theorem lookup_finish_eq_none_iff {entries : List (String × Value)}
    (read : resolveEntries? node.finish = some entries) :
    entries.lookup name = none ↔ node.get? name = none := by
  rw [lookup_eq_none_iff_names, names_resolveEntries? read, Node.finish_eq, names_finishEntries,
    ← lookup_eq_none_iff_names, Node.get?]

/-- One more entry comes out as it is. -/
theorem Inserted.finish {entries : List (String × Value)} {value : Value}
    (inserted : Inserted name item node node') (absent : node.get? name = none)
    (read : resolveEntries? node.finish = some entries)
    (resolved : item.finish.resolve? = some value) :
    ∃ entries', resolveEntries? node'.finish = some entries' ∧
      entries'.lookup name = some value := by
  obtain ⟨front, back, items, items'⟩ := inserted
  rw [Node.get?, items, List.lookup_append, Option.or_eq_none_iff] at absent
  rw [Node.finish_eq, items, finishEntries_append, resolveEntries?_append] at read
  obtain ⟨front', before, read⟩ := Option.bind_eq_some_iff.mp read
  obtain ⟨back', behind, _⟩ := Option.map_eq_some_iff.mp read
  refine ⟨front' ++ (name, value) :: back', ?_, ?_⟩
  · rw [Node.finish_eq, items', finishEntries_append, finishEntries, resolveEntries?_append, before,
      resolveEntries?, resolved, behind]
    rfl
  · have elsewhere : front'.lookup name = none := by
      rw [lookup_eq_none_iff_names, names_resolveEntries? before, names_finishEntries,
        ← lookup_eq_none_iff_names]
      exact absent.1
    rw [List.lookup_append, elsewhere, lookup_entry, if_pos rfl]
    rfl

/-- Lines that open a table of that name and give it these settings, wherever they stand. -/
def Gives (cs : List Char) (name : String) (table : Node) : Prop :=
  ∃ count ≤ cs.length, ∀ {reading root}, reading.close = some root → root.get? name = none →
    ∀ tail more, lines (count + more) reading (cs ++ tail) =
      lines more ⟨root, table, [name], false⟩ tail

/-- What stands before and after a table: a document of whole lines, and headers with their
settings. Together they are a document that has no entry of the table's name. -/
structure Surrounds (name before after : String) : Prop where
  wholeLines : WholeLines (skipMark before.toList)
  front : (parse? before).isSome = true
  headers : startsWithHeader after.toList = true
  document : ∃ entries, parse? (before ++ after) = some entries ∧ entries.lookup name = none

theorem surrounds_iff {before after : String} : Surrounds name before after ↔
    WholeLines (skipMark before.toList) ∧ (parse? before).isSome = true ∧
      startsWithHeader after.toList = true ∧
      (parse? (before ++ after)).any (fun entries => (entries.lookup name).isNone) = true := by
  simp only [Option.any_eq_true, Option.isNone_iff_eq_none]
  constructor
  · rintro ⟨wholeLines, front, headers, document⟩
    exact ⟨wholeLines, front, headers, document⟩
  · rintro ⟨wholeLines, front, headers, document⟩
    exact ⟨wholeLines, front, headers, document⟩

instance (before after : String) : Decidable (Surrounds name before after) :=
  decidable_of_iff _ surrounds_iff.symm

theorem skipMark_append (some : cs ≠ []) (tail : List Char) :
    skipMark (cs ++ tail) = skipMark cs ++ tail := by
  obtain ⟨c, cs, rfl⟩ := List.exists_cons_of_ne_nil some
  by_cases mark : c = '\ufeff'
  · subst mark
    rfl
  · have kept : ∀ rest, skipMark (c :: rest) = c :: rest := by
      intro rest
      rw [skipMark]
      rintro rest' same
      exact mark (List.cons.inj same).1
    rw [List.cons_append, kept, kept, List.cons_append]

/-- A mark is no header, nor is anything before one. -/
theorem skipMark_of_header (headers : startsWithHeader cs = true) : skipMark cs = cs := by
  unfold skipMark
  split
  · next rest =>
    have start : skipBlanks ('\ufeff' :: rest) = '\ufeff' :: rest := rfl
    obtain ⟨fuel, _, more⟩ := significant_succ start
    rw [startsWithHeader, more, skipLines_other start (by decide) (by decide) (by simp)] at headers
    cases headers
  · rfl

theorem skipMark_before {before : List Char} (headers : startsWithHeader cs = true) :
    skipMark (before ++ cs) = skipMark before ++ cs := by
  by_cases none : before = []
  · subst none
    exact skipMark_of_header headers
  · exact skipMark_append none cs

theorem startsWithHeader_of_bracket (bracket : cs.head? = some '[') :
    startsWithHeader cs = true := by
  obtain ⟨rest, rfl⟩ := List.head?_eq_some_iff.mp bracket
  have start : skipBlanks ('[' :: rest) = '[' :: rest := rfl
  obtain ⟨fuel, _, more⟩ := significant_succ start
  rw [startsWithHeader, more, skipLines_other start (by decide) (by decide) (by simp)]
  rfl

theorem parse?_eq_some_iff {document : String} {entries : List (String × Value)} :
    parse? document = some entries ↔ ∃ final root,
      lines ((skipMark document.toList).length + 1) .start (skipMark document.toList) = some final ∧
        final.close = some root ∧ resolveEntries? root.finish = some entries := by
  simp [parse?, Option.bind_eq_some_iff]

/-- A table among others comes out as it was given. -/
theorem lookup_parse?_of_gives {before text after : String} {table : Node} {value : Value}
    (gives : Gives text.toList name table) (bracket : text.toList.head? = some '[')
    (surrounds : Surrounds name before after)
    (resolved : (Item.table table).finish.resolve? = some value) :
    ∃ entries, parse? (before ++ text ++ after) = some entries ∧
      entries.lookup name = some value := by
  obtain ⟨entries, document, absent⟩ := surrounds.document
  obtain ⟨front, read⟩ := Option.isSome_iff_exists.mp surrounds.front
  -- The lines before lead to a reading, and those after lead on from there.
  obtain ⟨reading, root, lead, closed, _⟩ := parse?_eq_some_iff.mp read
  obtain ⟨count, bound, onward⟩ := lines_append surrounds.wholeLines lead
  obtain ⟨final, finalRoot, whole, finalClosed, finished⟩ := parse?_eq_some_iff.mp document
  rw [String.toList_append, skipMark_before surrounds.headers] at whole
  have length : (skipMark before.toList ++ after.toList).length + 1 =
      count + ((skipMark before.toList).length - count + after.toList.length + 1) := by
    rw [List.length_append]
    omega
  rw [length, onward] at whole
  -- The name is untouched in the end, so it is untouched before.
  have absent := (lookup_finish_eq_none_iff finished).mp absent
  have untouched : ¬final.Mentions name := by
    intro mentions
    have there := mentions.close finalClosed
    rw [absent] at there
    cases there
  have free : root.get? name = none := by
    by_contra there
    exact untouched ((Reading.mentions_of_close closed
      (Option.ne_none_iff_isSome.mp there)).lines whole)
  -- The lines of the table come between, with the table open after them.
  obtain ⟨count', bound', given⟩ := gives
  have closes : ClosesBeside name (.table table) reading ⟨root, table, [name], false⟩ := by
    intro root' closed'
    cases closed.symm.trans closed'
    refine ⟨root.put name (.table table), ?_, Inserted.put_self free⟩
    have named : [name] = [] ++ [name] := rfl
    rw [Reading.close_eq named, Node.change, Node.update, free]
    rfl
  have length' : (skipMark before.toList ++ (text.toList ++ after.toList)).length + 1 =
      count + (count' + ((skipMark before.toList).length - count +
        (text.toList.length - count') + after.toList.length + 1)) := by
    rw [List.length_append, List.length_append]
    omega
  have more : (skipMark before.toList).length - count + after.toList.length + 1 ≤
      (skipMark before.toList).length - count + (text.toList.length - count') +
        after.toList.length + 1 := by omega
  obtain ⟨final', whole', closes'⟩ := closes.lines surrounds.headers more whole untouched
  obtain ⟨finalRoot', finalClosed', inserted⟩ := closes' finalClosed
  obtain ⟨entries', finished', found⟩ := inserted.finish absent finished resolved
  refine ⟨entries', parse?_eq_some_iff.mpr ⟨final', finalRoot', ?_, finalClosed', finished'⟩, found⟩
  have opening : (text.toList ++ after.toList).head? = some '[' := by
    rw [List.head?_append, bracket, Option.some_or]
  rw [String.append_assoc, String.toList_append, String.toList_append,
    skipMark_before (startsWithHeader_of_bracket opening), length', onward, given closed free]
  exact whole'

end Interop.Toml
