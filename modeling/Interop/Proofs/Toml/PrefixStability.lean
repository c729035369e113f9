import Interop.Toml.Scan
import Mathlib.Data.List.TakeWhile

/-!
What is read from the start of a document does not depend on what follows. Words are taken as far
as they go, so characters that are added after the last word may lengthen it; but if a line end
comes last, no word goes beyond it. So a scanner that reads something from such characters reads the
same when more follow them, and leaves what it left before, with the further characters behind.
-/
namespace Interop.Toml

variable {α β : Type} {cs rest tail : List Char} {fuel fuel' : Nat}

/-- There is a line end at the end. -/
def Terminated (cs : List Char) : Prop := cs.getLast? = some '\n'

instance : Decidable (Terminated cs) := inferInstanceAs (Decidable (cs.getLast? = some '\n'))

/-- The characters are lines with their ends, if there are any. -/
def WholeLines (cs : List Char) : Prop := cs ≠ [] → Terminated cs

instance : Decidable (WholeLines cs) := inferInstanceAs (Decidable (cs ≠ [] → Terminated cs))

namespace Terminated

theorem ne_nil (ends : Terminated cs) : cs ≠ [] := by
  rintro rfl
  cases ends

theorem of_suffix (ends : Terminated cs) (suffix : rest <:+ cs) (some : rest ≠ []) :
    Terminated rest := by
  obtain ⟨front, rfl⟩ := suffix
  rw [Terminated, List.getLast?_append, List.getLast?_eq_some_getLast some, Option.some_or] at ends
  rw [Terminated, List.getLast?_eq_some_getLast some]
  exact ends

/-- Nothing but a line end is the last character. -/
theorem behind {c : Char} (ends : Terminated (c :: rest)) (inside : c ≠ '\n') :
    Terminated rest := by
  refine ends.of_suffix (List.suffix_cons c rest) ?_
  rintro rfl
  exact inside (Option.some.inj ends)

theorem mem (ends : Terminated cs) : '\n' ∈ cs := List.mem_of_getLast? ends

theorem dropWhile_ne_nil {p : Char → Bool} (ends : Terminated cs) (stops : p '\n' = false) :
    cs.dropWhile p ≠ [] := by
  intro all
  have passed := List.dropWhile_eq_nil_iff.mp all '\n' ends.mem
  rw [stops] at passed
  cases passed

theorem dropWhile {p : Char → Bool} (ends : Terminated cs) (stops : p '\n' = false) :
    Terminated (cs.dropWhile p) :=
  ends.of_suffix (List.dropWhile_suffix p) (ends.dropWhile_ne_nil stops)

theorem dropWhile_append {p : Char → Bool} (ends : Terminated cs) (stops : p '\n' = false) :
    (cs ++ rest).dropWhile p = cs.dropWhile p ++ rest := by
  rw [List.dropWhile_append, if_neg (by simpa using ends.dropWhile_ne_nil stops)]

theorem takeWhile_append {p : Char → Bool} (ends : Terminated cs) (stops : p '\n' = false) :
    (cs ++ rest).takeWhile p = cs.takeWhile p := by
  rw [List.takeWhile_append, if_neg]
  intro whole
  have parts := congrArg List.length (List.takeWhile_append_dropWhile (p := p) (l := cs))
  rw [List.length_append, whole] at parts
  exact ends.dropWhile_ne_nil stops (List.length_eq_zero_iff.mp (by omega))

theorem head?_append (ends : Terminated cs) : (cs ++ tail).head? = cs.head? := by
  obtain ⟨c, rest, rfl⟩ := List.exists_cons_of_ne_nil ends.ne_nil
  rfl

theorem wholeLines (ends : Terminated cs) : WholeLines cs := fun _ => ends

theorem skipBlanks (ends : Terminated cs) : Terminated (skipBlanks cs) := ends.dropWhile rfl

theorem skipBlanks_append (ends : Terminated cs) :
    Toml.skipBlanks (cs ++ tail) = Toml.skipBlanks cs ++ tail := ends.dropWhile_append rfl

end Terminated

theorem WholeLines.of_suffix (whole : WholeLines cs) (suffix : rest <:+ cs) : WholeLines rest := by
  intro some
  refine (whole ?_).of_suffix suffix some
  rintro rfl
  exact some (List.suffix_nil.mp suffix)

theorem WholeLines.behind {c : Char} (whole : WholeLines (c :: rest)) : WholeLines rest :=
  whole.of_suffix (List.suffix_cons c rest)

/-- If the first scan has read something up to a terminated rest, then the second one reads the same
and has further characters after that rest. -/
def Kept (tail : List Char) (found found' : Option (α × List Char)) : Prop :=
  ∀ x rest, found = some (x, rest) → Terminated rest ∧ found' = some (x, rest ++ tail)

namespace Kept

variable {found found' : Option (α × List Char)}

theorem none : Kept tail none found' := by
  intro x rest read
  cases read

theorem some {x : α} (ends : Terminated rest) :
    Kept tail (some (x, rest)) (some (x, rest ++ tail)) := by
  rintro _ _ ⟨⟩
  exact ⟨ends, rfl⟩

theorem bind {next next' : α × List Char → Option (β × List Char)} (kept : Kept tail found found')
    (after : ∀ x rest, Terminated rest → Kept tail (next (x, rest)) (next' (x, rest ++ tail))) :
    Kept tail (found >>= next) (found' >>= next') := by
  intro y rest read
  obtain ⟨⟨x, between⟩, first, second⟩ := Option.bind_eq_some_iff.mp read
  obtain ⟨ends, same⟩ := kept x between first
  obtain ⟨ends', same'⟩ := after x between ends y rest second
  refine ⟨ends', ?_⟩
  rw [same]
  exact same'

/-- Steps that read no character. -/
theorem bind_pure {γ : Type} {given : Option γ} {next next' : γ → Option (β × List Char)}
    (after : ∀ x, Kept tail (next x) (next' x)) :
    Kept tail (given >>= next) (given >>= next') := by
  intro y rest read
  obtain ⟨x, first, second⟩ := Option.bind_eq_some_iff.mp read
  obtain ⟨ends, same⟩ := after x y rest second
  refine ⟨ends, ?_⟩
  rw [first]
  exact same

end Kept

theorem hexNumber_kept (count sofar : Nat) (ends : Terminated cs) :
    Kept tail (hexNumber count sofar cs) (hexNumber count sofar (cs ++ tail)) := by
  induction count generalizing sofar cs with
  | zero => exact .some ends
  | succ count ih =>
    cases cs with
    | nil => exact absurd rfl ends.ne_nil
    | cons c cs =>
      by_cases inside : c = '\n'
      · subst inside
        exact .none
      · exact .bind_pure fun digit => ih _ (ends.behind inside)

theorem escape_kept (ends : Terminated cs) : Kept tail (escape cs) (escape (cs ++ tail)) := by
  unfold escape
  split
  case h_8 rest =>
    refine (hexNumber_kept 4 0 (ends.behind (by decide))).bind ?_
    intro n rest ends
    exact .bind_pure fun c => .some ends
  case h_9 rest =>
    refine (hexNumber_kept 8 0 (ends.behind (by decide))).bind ?_
    intro n rest ends
    exact .bind_pure fun c => .some ends
  case h_10 => exact .none
  all_goals exact .some (ends.behind (by decide))

theorem ne_lineEnd_of_plain {c : Char} (plain : isPlain c = true) : c ≠ '\n' := by
  rintro rfl
  cases plain

/-- More fuel does no harm, so it may grow with the characters. -/
theorem basicText_kept (enough : fuel ≤ fuel') (ends : Terminated cs) :
    Kept tail (basicText fuel cs) (basicText fuel' (cs ++ tail)) := by
  induction fuel generalizing fuel' cs with
  | zero => exact .none
  | succ fuel ih =>
    obtain ⟨fuel', rfl⟩ : ∃ n, fuel' = n + 1 := ⟨fuel' - 1, by omega⟩
    have enough : fuel ≤ fuel' := by omega
    rcases cs with _ | ⟨c, cs⟩
    · exact .none
    by_cases quote : c = '"'
    · subst quote
      exact .some (ends.behind (by decide))
    by_cases backslash : c = '\\'
    · subst backslash
      refine (escape_kept (ends.behind (by decide))).bind ?_
      intro c rest ends
      refine (ih enough ends).bind ?_
      intro text rest ends
      exact .some ends
    rw [List.cons_append, basicText, basicText] <;> try assumption
    split
    · next plain =>
      refine (ih enough (ends.behind (ne_lineEnd_of_plain plain))).bind ?_
      intro text rest ends
      exact .some ends
    · exact .none

theorem literalText_kept (ends : Terminated cs) :
    Kept tail (literalText cs) (literalText (cs ++ tail)) := by
  induction cs with
  | nil => exact .none
  | cons c cs ih =>
    by_cases quote : c = '\''
    · subst quote
      exact .some (ends.behind (by decide))
    rw [List.cons_append, literalText, literalText] <;> try assumption
    split
    · next plain =>
      refine (ih (ends.behind (ne_lineEnd_of_plain plain))).bind ?_
      intro text rest ends
      exact .some ends
    · exact .none

/-- Long texts end at three quotes in a row. -/
theorem closingQuotes_eq_none_iff {quote : Char} :
    closingQuotes quote cs = none ↔ ¬[quote, quote, quote] <+: cs := by
  rcases cs with _ | ⟨a, _ | ⟨b, _ | ⟨c, _ | ⟨d, _ | ⟨e, rest⟩⟩⟩⟩⟩ <;>
    simp [closingQuotes] <;> grind

theorem closingQuotes_other {quote d : Char} (other : d ≠ quote) (rest : List Char) :
    closingQuotes quote (quote :: quote :: quote :: d :: rest) = some ([], d :: rest) := by
  cases rest <;> simp [closingQuotes, other]

theorem closingQuotes_kept (tail : List Char) {quote : Char} (inside : quote ≠ '\n')
    (ends : Terminated cs) :
    Kept tail (closingQuotes quote cs) (closingQuotes quote (cs ++ tail)) := by
  by_cases closes : [quote, quote, quote] <+: cs
  · obtain ⟨rest, rfl⟩ := closes
    have ended : Terminated rest := ((ends.behind inside).behind inside).behind inside
    rcases rest with _ | ⟨d, rest⟩
    · exact absurd rfl ended.ne_nil
    by_cases fourth : d = quote
    · have ended := ended.behind (fourth ▸ inside)
      rcases rest with _ | ⟨e, rest⟩
      · exact absurd rfl ended.ne_nil
      by_cases fifth : e = quote
      · simpa [closingQuotes, fourth, fifth] using Kept.some (ended.behind (fifth ▸ inside))
      · simpa [closingQuotes, fourth, fifth] using Kept.some ended
    · have closed := closingQuotes_other fourth rest
      have closed' := closingQuotes_other fourth (rest ++ tail)
      simp only [List.cons_append, List.nil_append, closed, closed']
      exact .some ended
  · rw [closingQuotes_eq_none_iff.mpr closes]
    exact .none

/-- A mark within a line does not reach over the end of the last one. -/
theorem not_prefix_append {mark : List Char} (inside : '\n' ∉ mark) (ends : Terminated cs)
    (other : ¬mark <+: cs) : ¬mark <+: cs ++ tail := by
  intro marked
  rcases List.prefix_or_prefix_of_prefix marked (List.prefix_append cs tail) with within | short
  · exact other within
  · exact inside (short.subset ends.mem)

theorem closingQuotes_append (tail : List Char) {quote : Char} (inside : quote ≠ '\n')
    (ends : Terminated cs) (goesOn : closingQuotes quote cs = none) :
    closingQuotes quote (cs ++ tail) = none := by
  rw [closingQuotes_eq_none_iff] at goesOn ⊢
  exact not_prefix_append (by simp [inside.symm]) ends goesOn

/-- Characters that end a line start with a line end, or else with two characters that are none. -/
theorem Terminated.cases (ends : Terminated cs) :
    (∃ rest, cs = '\n' :: rest) ∨ (∃ rest, cs = '\r' :: '\n' :: rest) ∨
      ∃ c d rest, cs = c :: d :: rest ∧ c ≠ '\n' ∧ ¬(c = '\r' ∧ d = '\n') := by
  rcases cs with _ | ⟨c, cs⟩
  · exact absurd rfl ends.ne_nil
  by_cases first : c = '\n'
  · exact .inl ⟨cs, by rw [first]⟩
  rcases cs with _ | ⟨d, rest⟩
  · exact absurd rfl (ends.behind first).ne_nil
  by_cases both : c = '\r' ∧ d = '\n'
  · exact .inr (.inl ⟨rest, by rw [both.1, both.2]⟩)
  · exact .inr (.inr ⟨c, d, rest, rfl, first, both⟩)

/-- A return without a line feed has none when more follows either. -/
theorem single_append {c : Char} (whole : WholeLines (c :: rest))
    (single : ¬(c = '\r' ∧ rest.head? = some '\n')) :
    ¬(c = '\r' ∧ (rest ++ tail).head? = some '\n') := by
  rintro ⟨rfl, next⟩
  rw [((whole (List.cons_ne_nil _ rest)).behind (by decide)).head?_append] at next
  exact single ⟨rfl, next⟩

theorem skipBlankLines_suffix (cs : List Char) : skipBlankLines cs <:+ cs := by
  fun_induction skipBlankLines cs with
  | case1 rest ih => exact ih.trans (List.suffix_cons _ rest)
  | case2 rest ih => exact ih.trans ((List.suffix_cons _ rest).trans (List.suffix_cons _ _))
  | case3 c rest _ _ _ ih => exact ih.trans (List.suffix_cons _ rest)
  | case4 => exact List.suffix_refl _
  | case5 => exact List.suffix_refl _

theorem skipBlankLines_cons {c : Char} (first : c ≠ '\n')
    (single : ¬(c = '\r' ∧ rest.head? = some '\n')) :
    skipBlankLines (c :: rest) = if isBlank c then skipBlankLines rest else c :: rest := by
  rw [skipBlankLines]
  · exact first
  · rintro rest' rfl rfl
    exact single ⟨rfl, rfl⟩

theorem skipBlankLines_append (whole : WholeLines cs) (left : skipBlankLines cs ≠ []) :
    skipBlankLines (cs ++ tail) = skipBlankLines cs ++ tail := by
  fun_induction skipBlankLines cs with
  | case1 rest ih =>
    rw [List.cons_append, skipBlankLines]
    exact ih whole.behind left
  | case2 rest ih =>
    rw [List.cons_append, List.cons_append, skipBlankLines]
    exact ih whole.behind.behind left
  | case3 c rest first second blank ih =>
    have other : c ≠ '\r' := by rintro rfl; cases blank
    rw [List.cons_append, skipBlankLines_cons first (by simp [other]), if_pos blank]
    exact ih whole.behind left
  | case4 c rest first second blank =>
    have single : ¬(c = '\r' ∧ rest.head? = some '\n') := by
      rintro ⟨same, next⟩
      obtain ⟨rest', rfl⟩ := List.head?_eq_some_iff.mp next
      exact second rest' same rfl
    rw [List.cons_append, skipBlankLines_cons first (single_append whole single), if_neg blank]
  | case5 => exact absurd rfl left

/-- Folding ends in the following line, where the text goes on. -/
theorem skipFolded_append (tail : List Char) (ends : Terminated cs)
    (folded : skipFolded cs = some rest) (left : rest ≠ []) :
    WholeLines rest ∧ skipFolded (cs ++ tail) = some (rest ++ tail) := by
  unfold skipFolded at folded ⊢
  rw [ends.skipBlanks_append]
  have whole := ends.skipBlanks.wholeLines
  split at folded
  · next rest' start =>
    cases folded
    rw [start] at whole ⊢
    refine ⟨whole.behind.of_suffix (skipBlankLines_suffix rest'), ?_⟩
    exact congrArg some (skipBlankLines_append whole.behind left)
  · next rest' start =>
    cases folded
    rw [start] at whole ⊢
    refine ⟨whole.behind.behind.of_suffix (skipBlankLines_suffix rest'), ?_⟩
    exact congrArg some (skipBlankLines_append whole.behind.behind left)
  · cases folded

theorem skipFolded_append_none (tail : List Char) (ends : Terminated cs)
    (goesOn : skipFolded cs = none) : skipFolded (cs ++ tail) = none := by
  unfold skipFolded at goesOn ⊢
  rw [ends.skipBlanks_append]
  rcases ends.skipBlanks.cases with ⟨rest, start⟩ | ⟨rest, start⟩ | ⟨c, d, rest, start, first, both⟩
  · simp [start] at goesOn
  · simp [start] at goesOn
  · rw [start]
    split
    · simp_all
    · simp_all
    · rfl

/-- Both kinds of long texts are read alike, as long as no backslash comes that counts: three quotes
close them, and a line end is always a line feed. -/
structure LongText (quote : Char) (special : Char → Prop) (scan : Nat → Scanner (List Char)) :
    Prop where
  inside : quote ≠ '\n'
  closed : ∀ {fuel cs found}, closingQuotes quote cs = some found → scan (fuel + 1) cs = some found
  lineBreak : ∀ {fuel rest}, closingQuotes quote ('\r' :: '\n' :: rest) = none →
    scan (fuel + 1) ('\r' :: '\n' :: rest) = (do
      let (text, rest) ← scan fuel rest
      return ('\n' :: text, rest))
  other : ∀ {fuel c rest}, closingQuotes quote (c :: rest) = none → ¬special c →
    ¬(c = '\r' ∧ rest.head? = some '\n') →
    scan (fuel + 1) (c :: rest) =
      if isPlain c || c == '\n' then do
        let (text, rest) ← scan fuel rest
        return (c :: text, rest)
      else none

namespace LongText

variable {quote c : Char} {special : Char → Prop} {scan : Nat → Scanner (List Char)}

theorem kept_of_closed (long : LongText quote special scan) (ends : Terminated cs)
    {found : List Char × List Char} (closing : closingQuotes quote cs = some found) :
    Kept tail (scan (fuel + 1) cs) (scan (fuel' + 1) (cs ++ tail)) := by
  obtain ⟨chars, rest⟩ := found
  obtain ⟨ended, same⟩ := closingQuotes_kept tail long.inside ends chars rest closing
  rw [long.closed closing, long.closed same]
  exact .some ended

theorem kept_of_open (long : LongText quote special scan) (whole : WholeLines (c :: cs))
    (goesOn : closingQuotes quote (c :: cs) = none) (ordinary : ¬special c)
    (later : ∀ {cs}, WholeLines cs → Kept tail (scan fuel cs) (scan fuel' (cs ++ tail))) :
    Kept tail (scan (fuel + 1) (c :: cs)) (scan (fuel' + 1) (c :: cs ++ tail)) := by
  have goesOn' := closingQuotes_append tail long.inside (whole (List.cons_ne_nil c cs)) goesOn
  rw [List.cons_append] at goesOn' ⊢
  by_cases both : c = '\r' ∧ cs.head? = some '\n'
  · obtain ⟨rfl, next⟩ := both
    obtain ⟨cs, rfl⟩ := List.head?_eq_some_iff.mp next
    rw [List.cons_append] at goesOn' ⊢
    rw [long.lineBreak goesOn, long.lineBreak goesOn']
    refine (later whole.behind.behind).bind ?_
    intro text rest ends
    exact .some ends
  · rw [long.other goesOn ordinary both,
      long.other goesOn' ordinary (single_append whole both)]
    split
    · refine (later whole.behind).bind ?_
      intro text rest ends
      exact .some ends
    · exact .none

end LongText

theorem longText_basic : LongText '"' (· = '\\') longBasicText where
  inside := by decide
  closed := by
    intro fuel cs found closing
    unfold longBasicText
    rw [closing]
  lineBreak := by
    intro fuel rest goesOn
    rw [longBasicText, goesOn]
  other := by
    intro fuel c rest goesOn backslash single
    rw [longBasicText, goesOn]
    · exact backslash
    · rintro rest' rfl rfl
      exact single ⟨rfl, rfl⟩

theorem longText_literal : LongText '\'' (fun _ => False) longLiteralText where
  inside := by decide
  closed := by
    intro fuel cs found closing
    unfold longLiteralText
    rw [closing]
  lineBreak := by
    intro fuel rest goesOn
    rw [longLiteralText, goesOn]
  other := by
    intro fuel c rest goesOn _ single
    rw [longLiteralText, goesOn]
    rintro rest' rfl rfl
    exact single ⟨rfl, rfl⟩

theorem longBasicText_folded (goesOn : closingQuotes '"' ('\\' :: cs) = none)
    (folded : skipFolded cs = some rest) :
    longBasicText (fuel + 1) ('\\' :: cs) = longBasicText fuel rest := by
  rw [longBasicText, goesOn]
  simp only [folded]

theorem longBasicText_escape (goesOn : closingQuotes '"' ('\\' :: cs) = none)
    (straight : skipFolded cs = none) :
    longBasicText (fuel + 1) ('\\' :: cs) = (do
      let (c, rest) ← escape cs
      let (text, rest) ← longBasicText fuel rest
      return (c :: text, rest)) := by
  rw [longBasicText, goesOn]
  simp only [straight]

theorem longBasicText_kept (enough : fuel ≤ fuel') (whole : WholeLines cs) :
    Kept tail (longBasicText fuel cs) (longBasicText fuel' (cs ++ tail)) := by
  induction fuel generalizing fuel' cs with
  | zero => exact .none
  | succ fuel ih =>
    obtain ⟨fuel', rfl⟩ : ∃ n, fuel' = n + 1 := ⟨fuel' - 1, by omega⟩
    have enough : fuel ≤ fuel' := by omega
    rcases cs with _ | ⟨c, cs⟩
    · exact .none
    have ends := whole (List.cons_ne_nil c cs)
    cases goesOn : closingQuotes '"' (c :: cs) with
    | some found => exact longText_basic.kept_of_closed ends goesOn
    | none =>
      by_cases backslash : c = '\\'
      · subst backslash
        have goesOn' := closingQuotes_append tail (by decide) ends goesOn
        have ends := ends.behind (by decide)
        rw [List.cons_append] at goesOn' ⊢
        cases folded : skipFolded cs with
        | some next =>
          rw [longBasicText_folded goesOn folded]
          by_cases more : next = []
          · subst more
            cases fuel <;> exact .none
          · obtain ⟨whole, same⟩ := skipFolded_append tail ends folded more
            rw [longBasicText_folded goesOn' same]
            exact ih enough whole
        | none =>
          have straight := skipFolded_append_none tail ends folded
          rw [longBasicText_escape goesOn folded, longBasicText_escape goesOn' straight]
          refine (escape_kept ends).bind ?_
          intro c rest ends
          refine (ih enough ends.wholeLines).bind ?_
          intro text rest ends
          exact .some ends
      · exact longText_basic.kept_of_open whole goesOn backslash fun whole => ih enough whole

theorem longLiteralText_kept (enough : fuel ≤ fuel') (whole : WholeLines cs) :
    Kept tail (longLiteralText fuel cs) (longLiteralText fuel' (cs ++ tail)) := by
  induction fuel generalizing fuel' cs with
  | zero => exact .none
  | succ fuel ih =>
    obtain ⟨fuel', rfl⟩ : ∃ n, fuel' = n + 1 := ⟨fuel' - 1, by omega⟩
    have enough : fuel ≤ fuel' := by omega
    rcases cs with _ | ⟨c, cs⟩
    · exact .none
    cases goesOn : closingQuotes '\'' (c :: cs) with
    | some found =>
      exact longText_literal.kept_of_closed (whole (List.cons_ne_nil c cs)) goesOn
    | none => exact longText_literal.kept_of_open whole goesOn id fun whole => ih enough whole

theorem skipFirstLineEnd_append (tail : List Char) (ends : Terminated cs) :
    WholeLines (skipFirstLineEnd cs) ∧
      skipFirstLineEnd (cs ++ tail) = skipFirstLineEnd cs ++ tail := by
  rcases ends.cases with ⟨rest, rfl⟩ | ⟨rest, rfl⟩ | ⟨c, d, rest, rfl, first, both⟩
  · exact ⟨ends.wholeLines.behind, rfl⟩
  · exact ⟨ends.wholeLines.behind.behind, rfl⟩
  · have kept : ∀ rest, skipFirstLineEnd (c :: d :: rest) = c :: d :: rest := by
      intro rest
      unfold skipFirstLineEnd
      split <;> simp_all
    rw [List.cons_append, List.cons_append, kept, kept]
    exact ⟨ends.wholeLines, rfl⟩

theorem text_basic (short : ¬['"', '"'] <+: rest) :
    text ('"' :: rest) = (do
      let (chars, rest) ← basicText (rest.length + 1) rest
      return (String.ofList chars, rest)) := by
  rw [text]
  rintro rest' rfl
  exact short ⟨rest', rfl⟩

theorem text_literal (short : ¬['\'', '\''] <+: rest) :
    text ('\'' :: rest) = (do
      let (chars, rest) ← literalText rest
      return (String.ofList chars, rest)) := by
  rw [text]
  rintro rest' rfl
  exact short ⟨rest', rfl⟩

/-- The fuel is taken from the length, so there is more of it if more follows. -/
theorem fuel_append (cs tail : List Char) : cs.length + 1 ≤ (cs ++ tail).length + 1 := by simp

theorem text_kept (ends : Terminated cs) : Kept tail (text cs) (text (cs ++ tail)) := by
  rcases cs with _ | ⟨c, cs⟩
  · exact .none
  by_cases double : c = '"'
  · subst double
    have ends := ends.behind (by decide)
    by_cases long : ['"', '"'] <+: cs
    · obtain ⟨rest, rfl⟩ := long
      simp only [List.cons_append, List.nil_append] at ends ⊢
      obtain ⟨whole, same⟩ := skipFirstLineEnd_append tail
        ((ends.behind (by decide)).behind (by decide))
      rw [text, text, same]
      refine (longBasicText_kept (fuel_append rest tail) whole).bind ?_
      intro chars rest ends
      exact .some ends
    · rw [text_basic long, List.cons_append,
        text_basic (not_prefix_append (by decide) ends long)]
      refine (basicText_kept (fuel_append cs tail) ends).bind ?_
      intro chars rest ends
      exact .some ends
  by_cases single : c = '\''
  · subst single
    have ends := ends.behind (by decide)
    by_cases long : ['\'', '\''] <+: cs
    · obtain ⟨rest, rfl⟩ := long
      simp only [List.cons_append, List.nil_append] at ends ⊢
      obtain ⟨whole, same⟩ := skipFirstLineEnd_append tail
        ((ends.behind (by decide)).behind (by decide))
      rw [text, text, same]
      refine (longLiteralText_kept (fuel_append rest tail) whole).bind ?_
      intro chars rest ends
      exact .some ends
    · rw [text_literal long, List.cons_append,
        text_literal (not_prefix_append (by decide) ends long)]
      refine (literalText_kept ends).bind ?_
      intro chars rest ends
      exact .some ends
  · have unquoted : text (c :: cs) = none := by
      unfold text
      split <;> simp_all
    rw [unquoted]
    exact .none

end Interop.Toml
