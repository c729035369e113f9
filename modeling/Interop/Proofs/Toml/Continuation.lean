import Interop.Toml.Document
import Interop.Proofs.Toml.WordStability

/-!
Documents are read on from where the part before has led. What holds of the words of a document
holds of its values and lines: they are read as before when further lines follow. So if a document
consists of whole lines, then the lines after it are read from the tables that it leaves.
-/
namespace Interop.Toml

variable {cs rest tail : List Char} {c : Char} {fuel fuel' depth : Nat}

theorem value_text (quoted : c = '"' ∨ c = '\'') :
    value (fuel + 1) depth (c :: rest) = (do
      let (found, rest) ← text (c :: rest)
      return (.string found, rest)) := by
  rcases quoted with rfl | rfl <;> rw [value]

theorem value_word (double : c ≠ '"') (single : c ≠ '\'') (bracket : c ≠ '[') (brace : c ≠ '{') :
    value (fuel + 1) depth (c :: rest) =
      (wordValue? (word (c :: rest)).1).map fun found => (found, (word (c :: rest)).2) := by
  rw [value]
  · rcases word (c :: rest) with ⟨found, left⟩
    dsimp only
    cases wordValue? found <;> rfl
  all_goals simp_all

theorem value_nil (fuel depth : Nat) : value fuel depth [] = none := by
  cases fuel <;> rfl

/-- Values, items and entries are read as before when more follows, as far as the fuel goes. -/
structure ValuesKept (tail : List Char) (fuel : Nat) : Prop where
  value : ∀ {fuel' depth cs}, fuel ≤ fuel' → Terminated cs →
    Kept tail (value fuel depth cs) (value fuel' depth (cs ++ tail))
  items : ∀ {fuel' depth cs}, fuel ≤ fuel' → Terminated cs →
    Kept tail (arrayItems fuel depth cs) (arrayItems fuel' depth (cs ++ tail))
  entries : ∀ {fuel' depth node cs}, fuel ≤ fuel' → Terminated cs →
    Kept tail (braceEntries fuel depth node cs) (braceEntries fuel' depth node (cs ++ tail))

namespace ValuesKept

theorem value_step (kept : ValuesKept tail fuel) (enough : fuel ≤ fuel') (ends : Terminated cs) :
    Kept tail (Toml.value (fuel + 1) depth cs) (Toml.value (fuel' + 1) depth (cs ++ tail)) := by
  obtain ⟨c, cs, rfl⟩ := List.exists_cons_of_ne_nil ends.ne_nil
  by_cases quoted : c = '"' ∨ c = '\''
  · rw [value_text quoted, List.cons_append, value_text quoted]
    refine (text_kept ends).bind ?_
    intro found rest ends
    exact .some ends
  obtain ⟨double, single⟩ := not_or.mp quoted
  by_cases bracket : c = '['
  · subst bracket
    cases depth with
    | zero => exact .none
    | succ depth =>
      refine (kept.items enough (ends.behind (by decide))).bind ?_
      intro items rest ends
      exact .some ends
  by_cases brace : c = '{'
  · subst brace
    cases depth with
    | zero => exact .none
    | succ depth =>
      have ends := ends.behind (by decide)
      rw [List.cons_append, Toml.value, Toml.value, ends.skipBlanks_append]
      have ends := ends.skipBlanks
      obtain ⟨d, rest, start⟩ := List.exists_cons_of_ne_nil ends.ne_nil
      rw [start] at ends ⊢
      by_cases closing : d = '}'
      · subst closing
        exact .some (ends.behind (by decide))
      · split
        · next same => exact absurd (List.cons.inj same).1 closing
        · split
          · next same => exact absurd (List.cons.inj same).1 closing
          · refine (kept.entries enough ends).bind ?_
            intro node rest ends
            exact .some ends
  rw [value_word double single bracket brace, List.cons_append,
    value_word double single bracket brace]
  obtain ⟨ended, same⟩ := word_append tail ends
  rw [List.cons_append] at same
  rw [same]
  cases wordValue? (word (c :: cs)).1 with
  | none => exact .none
  | some found => exact .some ended

theorem items_step (kept : ValuesKept tail fuel) (enough : fuel ≤ fuel') (ends : Terminated cs) :
    Kept tail (arrayItems (fuel + 1) depth cs) (arrayItems (fuel' + 1) depth (cs ++ tail)) := by
  rw [arrayItems, arrayItems]
  by_cases left : skipLines cs.length cs = []
  · rw [left]
    dsimp only
    rw [value_nil]
    exact .none
  obtain ⟨ends, same⟩ := skipLines_kept tail ends left
  obtain ⟨c, start, opening⟩ := List.exists_cons_of_ne_nil left
  rw [same]
  rw [opening] at ends ⊢
  by_cases closing : c = ']'
  · subst closing
    exact .some (ends.behind (by decide))
  split
  · next same => exact absurd (List.cons.inj same).1 closing
  split
  · next same => exact absurd (List.cons.inj same).1 closing
  refine (kept.value enough ends).bind ?_
  intro first rest ends
  dsimp only
  by_cases left : skipLines rest.length rest = []
  · rw [left]
    exact .none
  obtain ⟨ends, same⟩ := skipLines_kept tail ends left
  obtain ⟨d, rest', start⟩ := List.exists_cons_of_ne_nil left
  rw [same]
  rw [start] at ends ⊢
  by_cases comma : d = ','
  · subst comma
    refine (kept.items enough (ends.behind (by decide))).bind ?_
    intro others rest ends
    exact .some ends
  by_cases closing : d = ']'
  · subst closing
    exact .some (ends.behind (by decide))
  split
  · next same => exact absurd (List.cons.inj same).1 comma
  · next same => exact absurd (List.cons.inj same).1 closing
  · exact .none

theorem entries_step (kept : ValuesKept tail fuel) (enough : fuel ≤ fuel') {node : Node}
    (ends : Terminated cs) :
    Kept tail (braceEntries (fuel + 1) depth node cs)
      (braceEntries (fuel' + 1) depth node (cs ++ tail)) := by
  rw [braceEntries, braceEntries]
  refine (key_kept tail ends).bind ?_
  intro path rest ends
  dsimp only
  obtain ⟨c, rest, rfl⟩ := List.exists_cons_of_ne_nil ends.ne_nil
  by_cases equals : c = '='
  · subst equals
    have ends := ends.behind (by decide)
    have value : Kept tail (Toml.value fuel depth _) _ := kept.value enough ends.skipBlanks
    rw [← ends.skipBlanks_append] at value
    refine value.bind ?_
    intro found rest ends
    refine .bind_pure fun name => .bind_pure fun node => ?_
    rw [ends.skipBlanks_append]
    have ends := ends.skipBlanks
    obtain ⟨d, rest', start⟩ := List.exists_cons_of_ne_nil ends.ne_nil
    rw [start] at ends ⊢
    by_cases comma : d = ','
    · subst comma
      exact kept.entries enough (ends.behind (by decide))
    by_cases closing : d = '}'
    · subst closing
      exact .some (ends.behind (by decide))
    split
    · next same => exact absurd (List.cons.inj same).1 comma
    · next same => exact absurd (List.cons.inj same).1 closing
    · exact .none
  · split
    · next same => exact absurd (List.cons.inj same).1 equals
    · exact .none

end ValuesKept

theorem valuesKept (tail : List Char) (fuel : Nat) : ValuesKept tail fuel := by
  induction fuel with
  | zero =>
    refine ⟨?_, ?_, ?_⟩
    · intro fuel' depth cs _ _
      exact .none
    · intro fuel' depth cs _ _
      exact .none
    · intro fuel' depth node cs _ _
      exact .none
  | succ fuel kept =>
    refine ⟨?_, ?_, ?_⟩
    all_goals
      intro fuel' _
      intros
      obtain ⟨fuel', rfl⟩ : ∃ n, fuel' = n + 1 := ⟨fuel' - 1, by omega⟩
    · exact kept.value_step (by omega) ‹_›
    · exact kept.items_step (by omega) ‹_›
    · exact kept.entries_step (by omega) ‹_›

/-- What a line says. -/
inductive Statement where
  | table (path : List String)
  | arrayTable (path : List String)
  | setting (path : List String) (value : Value)

/-- What a line says, and what is left after its end. -/
inductive Reads : List Char → Statement → List Char → Prop where
  | arrayTable {path : List String} {cs behind rest : List Char}
      (header : key cs = some (path, ']' :: ']' :: behind))
      (ending : restOfLine behind = some rest) : Reads ('[' :: '[' :: cs) (.arrayTable path) rest
  | table {path : List String} {cs behind rest : List Char} (single : cs.head? ≠ some '[')
      (header : key cs = some (path, ']' :: behind))
      (ending : restOfLine behind = some rest) : Reads ('[' :: cs) (.table path) rest
  | setting {path : List String} {found : Value} {cs behind behind' rest : List Char}
      (plain : cs.head? ≠ some '[') (name : key cs = some (path, '=' :: behind))
      (given : value (behind.length + 1) (nestingLimit - 1) (skipBlanks behind) =
        some (found, behind'))
      (ending : restOfLine behind' = some rest) : Reads cs (.setting path found) rest

/-- Does what a line says. -/
def Reading.follow (reading : Reading) : Statement → Option Reading
  | .table path => reading.openTable path
  | .arrayTable path => reading.openArrayTable path
  | .setting path value => do
    let name ← path.getLast?
    let current ← reading.current.addValue path.dropLast name value
    return { reading with current := current }

variable {reading reading' : Reading} {statement : Statement}

theorem Reads.line (reads : Reads cs statement rest)
    (followed : reading.follow statement = some reading') :
    line reading cs = some (reading', rest) := by
  cases reads with
  | arrayTable header ending =>
    rw [Reading.follow] at followed
    rw [Toml.line, header]
    simp [ending, followed]
  | table single header ending =>
    rw [Reading.follow] at followed
    rw [Toml.line, header]
    · simp [ending, followed]
    · rintro rest' rfl
      exact single rfl
  | setting plain name given ending =>
    simp only [Reading.follow, Option.bind_eq_bind, Option.bind_eq_some_iff] at followed
    obtain ⟨last, named, current, added, same⟩ := followed
    rw [Toml.line, name]
    · simp [given, ending, named, added]
      exact Option.some.inj same
    all_goals
      rintro rest' rfl
      exact plain rfl

/-- The characters of a line and the tables do not meddle with each other. -/
theorem reads_of_line (read : line reading cs = some (reading', rest)) :
    ∃ statement, Reads cs statement rest ∧ reading.follow statement = some reading' := by
  unfold line at read
  split at read
  · next cs =>
    obtain ⟨⟨path, behind⟩, header, read⟩ := Option.bind_eq_some_iff.mp read
    dsimp only at read
    split at read
    · obtain ⟨rest, ending, read⟩ := Option.bind_eq_some_iff.mp read
      obtain ⟨reading', followed, same⟩ := Option.bind_eq_some_iff.mp read
      cases same
      exact ⟨.arrayTable path, .arrayTable header ending, followed⟩
    · cases read
  · next cs double =>
    obtain ⟨⟨path, behind⟩, header, read⟩ := Option.bind_eq_some_iff.mp read
    dsimp only at read
    split at read
    · obtain ⟨rest, ending, read⟩ := Option.bind_eq_some_iff.mp read
      obtain ⟨reading', followed, same⟩ := Option.bind_eq_some_iff.mp read
      cases same
      refine ⟨.table path, .table ?_ header ending, followed⟩
      intro single
      obtain ⟨rest, rfl⟩ := List.head?_eq_some_iff.mp single
      exact double rest rfl
    · cases read
  · next double single =>
    obtain ⟨⟨path, behind⟩, header, read⟩ := Option.bind_eq_some_iff.mp read
    dsimp only at read
    split at read
    · obtain ⟨⟨found, behind'⟩, given, read⟩ := Option.bind_eq_some_iff.mp read
      obtain ⟨rest, ending, read⟩ := Option.bind_eq_some_iff.mp read
      obtain ⟨name, named, read⟩ := Option.bind_eq_some_iff.mp read
      obtain ⟨current, added, same⟩ := Option.bind_eq_some_iff.mp read
      cases same
      refine ⟨.setting path found, .setting ?_ header given ending, ?_⟩
      · intro bracket
        obtain ⟨rest, rfl⟩ := List.head?_eq_some_iff.mp bracket
        exact single rest rfl
      · rw [Reading.follow, named, Option.bind_eq_bind, Option.bind_some, added]
        rfl
    · cases read

/-- A line is read as before when more follows it. Its own end is read too, so nothing may be left
of the document. -/
theorem Reads.append (tail : List Char) (reads : Reads cs statement rest) (ends : Terminated cs) :
    WholeLines rest ∧ Reads (cs ++ tail) statement (rest ++ tail) := by
  cases reads with
  | arrayTable header ending =>
    obtain ⟨ends, header⟩ := key_kept tail ((ends.behind (by decide)).behind (by decide))
      _ _ header
    obtain ⟨whole, ending⟩ := restOfLine_append tail
      ((ends.behind (by decide)).behind (by decide)) ending
    exact ⟨whole, .arrayTable header ending⟩
  | table single header ending =>
    have ends := ends.behind (by decide)
    obtain ⟨ended, header⟩ := key_kept tail ends _ _ header
    obtain ⟨whole, ending⟩ := restOfLine_append tail (ended.behind (by decide)) ending
    refine ⟨whole, .table ?_ header ending⟩
    intro bracket
    exact single (ends.head?_append.symm.trans bracket)
  | setting plain name given ending =>
    obtain ⟨ended, name⟩ := key_kept tail ends _ _ name
    have ended := ended.behind (by decide)
    obtain ⟨ended', given⟩ := (valuesKept tail _).value (fuel_append _ tail) ended.skipBlanks
      _ _ given
    rw [← ended.skipBlanks_append] at given
    obtain ⟨whole, ending⟩ := restOfLine_append tail ended' ending
    exact ⟨whole, .setting (by rwa [ends.head?_append]) name given ending⟩

/-- The line that the characters start with: nothing but blanks and a comment, or a statement. -/
inductive ReadsLine : List Char → Option Statement → List Char → Prop where
  | feed {cs rest : List Char} (start : skipBlanks cs = '\n' :: rest) : ReadsLine cs none rest
  | crlf {cs rest : List Char} (start : skipBlanks cs = '\r' :: '\n' :: rest) :
      ReadsLine cs none rest
  | comment {cs behind rest : List Char} (start : skipBlanks cs = '#' :: behind)
      (ending : lineEnd (behind.dropWhile isPlain) = some rest) : ReadsLine cs none rest
  | statement {cs behind rest : List Char} {c : Char} {statement : Statement}
      (start : skipBlanks cs = c :: behind) (feed : c ≠ '\n') (hash : c ≠ '#')
      (single : ¬(c = '\r' ∧ behind.head? = some '\n'))
      (reads : Reads (c :: behind) statement rest) : ReadsLine cs (some statement) rest

/-- A line without a statement changes nothing. -/
def Reading.pass (reading : Reading) : Option Statement → Option Reading
  | none => some reading
  | some statement => reading.follow statement

variable {content : Option Statement} {final : Reading}

theorem lines_other (start : skipBlanks cs = c :: rest) (feed : c ≠ '\n') (hash : c ≠ '#')
    (single : ¬(c = '\r' ∧ rest.head? = some '\n')) :
    lines (fuel + 1) reading cs =
      (line reading (c :: rest)).bind fun read => lines fuel read.1 read.2 := by
  rw [lines, start]
  split <;> simp_all

theorem lines_step (reads : ReadsLine cs content rest)
    (passed : reading.pass content = some reading') :
    lines (fuel + 1) reading cs = lines fuel reading' rest := by
  cases reads with
  | feed start =>
    cases passed
    rw [lines, start]
    rfl
  | crlf start =>
    cases passed
    rw [lines, start]
    rfl
  | comment start ending =>
    cases passed
    rw [lines, start]
    simp [ending]
  | statement start feed hash single reads =>
    rw [lines_other start feed hash single, reads.line passed]
    rfl

theorem lines_cases (read : lines (fuel + 1) reading cs = some final) :
    (skipBlanks cs = [] ∧ final = reading) ∨
      ∃ content rest reading', ReadsLine cs content rest ∧ reading.pass content = some reading' ∧
        lines fuel reading' rest = some final := by
  rcases start_cases (skipBlanks cs) with
    start | ⟨rest, start⟩ | ⟨rest, start⟩ | ⟨rest, start⟩ | ⟨c, rest, start, feed, hash, single⟩
  · rw [lines, start] at read
    exact .inl ⟨start, (Option.some.inj read).symm⟩
  · rw [lines, start] at read
    exact .inr ⟨none, rest, reading, .feed start, rfl, read⟩
  · rw [lines, start] at read
    exact .inr ⟨none, rest, reading, .crlf start, rfl, read⟩
  · rw [lines, start] at read
    obtain ⟨behind, ending, read⟩ := Option.bind_eq_some_iff.mp read
    exact .inr ⟨none, behind, reading, .comment start ending, rfl, read⟩
  · rw [lines_other start feed hash single] at read
    obtain ⟨⟨reading', behind⟩, one, read⟩ := Option.bind_eq_some_iff.mp read
    obtain ⟨statement, reads, followed⟩ := reads_of_line one
    exact .inr ⟨some statement, behind, reading', .statement start feed hash single reads,
      followed, read⟩

theorem ReadsLine.append (tail : List Char) (reads : ReadsLine cs content rest)
    (whole : WholeLines cs) : WholeLines rest ∧ ReadsLine (cs ++ tail) content (rest ++ tail) := by
  have ends : Terminated cs := by
    refine whole ?_
    rintro rfl
    cases reads <;> contradiction
  have start' : skipBlanks (cs ++ tail) = _ := ends.skipBlanks_append
  have ended := ends.skipBlanks
  cases reads with
  | feed start =>
    rw [start] at start' ended
    exact ⟨ended.wholeLines.behind, .feed start'⟩
  | crlf start =>
    rw [start] at start' ended
    exact ⟨ended.wholeLines.behind.behind, .crlf start'⟩
  | comment start ending =>
    rw [start] at start' ended
    have ended := ended.behind (by decide)
    obtain ⟨whole, ending⟩ := lineEnd_append tail (ended.dropWhile (by decide)) ending
    rw [← ended.dropWhile_append (by decide)] at ending
    exact ⟨whole, .comment start' ending⟩
  | statement start feed hash single reads =>
    rw [start] at start' ended
    obtain ⟨whole, reads⟩ := reads.append tail ended
    exact ⟨whole, .statement start' feed hash (single_append ended.wholeLines single) reads⟩

/-- Lines lead to some reading, from which those after them are read. The fuel bounds how many there
are. -/
theorem lines_append (whole : WholeLines cs) (read : lines fuel reading cs = some final) :
    ∃ count < fuel, ∀ tail more,
      lines (count + more) reading (cs ++ tail) = lines more final tail := by
  induction fuel generalizing reading cs with
  | zero => cases read
  | succ fuel ih =>
    rcases lines_cases read with ⟨blank, rfl⟩ | ⟨content, rest, reading', reads, passed, read⟩
    · have none : cs = [] := by
        by_contra some
        exact (whole some).skipBlanks.ne_nil blank
      subst none
      exact ⟨0, Nat.succ_pos fuel, fun tail more => by rw [Nat.zero_add, List.nil_append]⟩
    · obtain ⟨count, bound, onward⟩ := ih (reads.append [] whole).1 read
      refine ⟨count + 1, Nat.succ_lt_succ bound, ?_⟩
      intro tail more
      rw [Nat.succ_add, lines_step (reads.append tail whole).2 passed, onward]

end Interop.Toml
