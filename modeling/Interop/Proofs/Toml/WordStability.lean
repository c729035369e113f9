import Interop.Proofs.Toml.PrefixStability

/-!
Keys, words and the ends of lines do not depend on what follows either. A word may go on after a
blank, if it is a date and a time comes next; so two digits and a colon are looked for behind it,
which the line end keeps from reaching into what follows. Blank lines and comments between the items
of an array are skipped up to the next character that counts.
-/
namespace Interop.Toml

variable {cs rest tail : List Char} {fuel fuel' : Nat}

theorem keyPart_bare (double : cs.head? ≠ some '"') (single : cs.head? ≠ some '\'') :
    keyPart cs =
      if cs.takeWhile isBareKey = [] then none
      else some (String.ofList (cs.takeWhile isBareKey), cs.dropWhile isBareKey) := by
  unfold keyPart
  split
  · exact absurd rfl double
  · exact absurd rfl single
  · split <;> simp_all

theorem keyPart_kept (ends : Terminated cs) : Kept tail (keyPart cs) (keyPart (cs ++ tail)) := by
  obtain ⟨c, cs, rfl⟩ := List.exists_cons_of_ne_nil ends.ne_nil
  by_cases double : c = '"'
  · subst double
    refine (basicText_kept (fuel_append cs tail) (ends.behind (by decide))).bind ?_
    intro chars rest ends
    exact .some ends
  by_cases single : c = '\''
  · subst single
    refine (literalText_kept (ends.behind (by decide))).bind ?_
    intro chars rest ends
    exact .some ends
  rw [keyPart_bare (by simpa using double) (by simpa using single),
    keyPart_bare (by simpa using double) (by simpa using single),
    ends.takeWhile_append (by decide), ends.dropWhile_append (by decide)]
  split
  · exact .none
  · exact .some (ends.dropWhile (by decide))

theorem keyParts_kept (enough : fuel ≤ fuel') (ends : Terminated cs) :
    Kept tail (keyParts fuel cs) (keyParts fuel' (cs ++ tail)) := by
  induction fuel generalizing fuel' cs with
  | zero => exact .none
  | succ fuel ih =>
    obtain ⟨fuel', rfl⟩ : ∃ n, fuel' = n + 1 := ⟨fuel' - 1, by omega⟩
    have enough : fuel ≤ fuel' := by omega
    rw [keyParts, keyParts, ends.skipBlanks_append]
    refine (keyPart_kept ends.skipBlanks).bind ?_
    intro first rest ends
    dsimp only
    rw [ends.skipBlanks_append]
    have ends := ends.skipBlanks
    obtain ⟨c, rest', start⟩ := List.exists_cons_of_ne_nil ends.ne_nil
    rw [start] at ends ⊢
    by_cases dot : c = '.'
    · subst dot
      refine (ih enough (ends.behind (by decide))).bind ?_
      intro others rest ends
      exact .some ends
    · split
      · next same => exact absurd (List.cons.inj same).1 dot
      · split
        · next same => exact absurd (List.cons.inj same).1 dot
        · exact .some ends

theorem key_kept (tail : List Char) (ends : Terminated cs) :
    Kept tail (key cs) (key (cs ++ tail)) := by
  refine (keyParts_kept (by simp) ends).bind ?_
  intro path rest ends
  dsimp only
  split
  · exact .some ends
  · exact .none

theorem twoDigits_append (ends : Terminated cs) :
    twoDigits (cs ++ tail) = (twoDigits cs).map fun read => (read.1, read.2 ++ tail) := by
  rcases cs with _ | ⟨a, _ | ⟨b, rest⟩⟩
  · exact absurd rfl ends.ne_nil
  · cases ends
    cases tail <;> rfl
  · simp only [List.cons_append, twoDigits]
    split <;> rfl

theorem twoDigits_terminated {n : Nat} (ends : Terminated cs)
    (read : twoDigits cs = some (n, rest)) : Terminated rest := by
  unfold twoDigits at read
  split at read
  · next a b _ =>
    split at read
    · next digits =>
      cases read
      rw [Bool.and_eq_true] at digits
      refine (ends.behind ?_).behind ?_
      · rintro rfl
        cases digits.1
      · rintro rfl
        cases digits.2
    · cases read
  · cases read

/-- The characters start with a date, a blank and two digits with a colon behind them: then the word
goes on after the blank, which is followed by `more`. -/
structure HasTime (cs more : List Char) : Prop where
  date : Datetime.date (cs.takeWhile isWordChar) = some ((), [])
  blank : cs.dropWhile isWordChar = ' ' :: more
  clock : ∃ n rest, twoDigits more = some (n, ':' :: rest)

theorem word_of_time {more : List Char} (time : HasTime cs more) :
    word cs =
      (cs.takeWhile isWordChar ++ ' ' :: more.takeWhile isWordChar, more.dropWhile isWordChar) := by
  obtain ⟨n, rest, clock⟩ := time.clock
  simp only [word, time.blank, time.date, clock]

theorem word_of_no_time (noTime : ∀ more, ¬HasTime cs more) :
    word cs = (cs.takeWhile isWordChar, cs.dropWhile isWordChar) := by
  unfold word
  dsimp only
  split
  · next more blank =>
    split
    · next date clock => exact absurd ⟨date, blank, _, _, clock⟩ (noTime more)
    · rfl
  · rfl

theorem HasTime.append {more : List Char} (time : HasTime cs more) (ends : Terminated cs) :
    HasTime (cs ++ tail) (more ++ tail) where
  date := by rw [ends.takeWhile_append (by decide), time.date]
  blank := by rw [ends.dropWhile_append (by decide), time.blank, List.cons_append]
  clock := by
    obtain ⟨n, rest, clock⟩ := time.clock
    have ended := ends.dropWhile (p := isWordChar) (by decide)
    rw [time.blank] at ended
    exact ⟨n, rest ++ tail, by rw [twoDigits_append (ended.behind (by decide)), clock]; rfl⟩

theorem HasTime.of_append {more : List Char} (time : HasTime (cs ++ tail) more)
    (ends : Terminated cs) : ∃ more', HasTime cs more' := by
  obtain ⟨date, blank, n, rest, clock⟩ := time
  rw [ends.takeWhile_append (by decide)] at date
  rw [ends.dropWhile_append (by decide)] at blank
  have ended := ends.dropWhile (p := isWordChar) (by decide)
  obtain ⟨c, more', start⟩ := List.exists_cons_of_ne_nil ended.ne_nil
  rw [start, List.cons_append] at blank
  obtain ⟨rfl, rfl⟩ := List.cons.inj blank
  rw [start] at ended
  have ended := ended.behind (by decide)
  rw [twoDigits_append ended] at clock
  obtain ⟨⟨n', rest'⟩, read, same⟩ := Option.map_eq_some_iff.mp clock
  obtain ⟨d, rest', rfl⟩ := List.exists_cons_of_ne_nil (twoDigits_terminated ended read).ne_nil
  cases same
  exact ⟨more', date, start, n', rest', read⟩

theorem word_append (tail : List Char) (ends : Terminated cs) :
    Terminated (word cs).2 ∧ word (cs ++ tail) = ((word cs).1, (word cs).2 ++ tail) := by
  have ended := ends.dropWhile (p := isWordChar) (by decide)
  by_cases hasTime : ∃ more, HasTime cs more
  · obtain ⟨more, time⟩ := hasTime
    rw [time.blank] at ended
    have ended := ended.behind (by decide)
    rw [word_of_time time, word_of_time (time.append ends), ends.takeWhile_append (by decide),
      ended.takeWhile_append (by decide), ended.dropWhile_append (by decide)]
    exact ⟨ended.dropWhile (by decide), rfl⟩
  · have noTime : ∀ more, ¬HasTime (cs ++ tail) more :=
      fun more time => hasTime (time.of_append ends)
    rw [word_of_no_time (not_exists.mp hasTime), word_of_no_time noTime,
      ends.takeWhile_append (by decide), ends.dropWhile_append (by decide)]
    exact ⟨ended, rfl⟩

/-- What a line can start with. -/
theorem start_cases (cs : List Char) :
    cs = [] ∨ (∃ rest, cs = '\n' :: rest) ∨ (∃ rest, cs = '\r' :: '\n' :: rest) ∨
      (∃ rest, cs = '#' :: rest) ∨
      ∃ c rest, cs = c :: rest ∧ c ≠ '\n' ∧ c ≠ '#' ∧ ¬(c = '\r' ∧ rest.head? = some '\n') := by
  rcases cs with _ | ⟨c, rest⟩
  · exact .inl rfl
  by_cases feed : c = '\n'
  · exact .inr (.inl ⟨rest, by rw [feed]⟩)
  by_cases hash : c = '#'
  · exact .inr (.inr (.inr (.inl ⟨rest, by rw [hash]⟩)))
  by_cases both : c = '\r' ∧ rest.head? = some '\n'
  · obtain ⟨rfl, next⟩ := both
    obtain ⟨rest, rfl⟩ := List.head?_eq_some_iff.mp next
    exact .inr (.inr (.inl ⟨rest, rfl⟩))
  · exact .inr (.inr (.inr (.inr ⟨c, rest, rfl, feed, hash, both⟩)))

section
variable {c : Char}

theorem skipLines_feed (start : skipBlanks cs = '\n' :: rest) :
    skipLines (fuel + 1) cs = skipLines fuel rest := by
  rw [skipLines, start]
  rfl

theorem skipLines_return (start : skipBlanks cs = '\r' :: '\n' :: rest) :
    skipLines (fuel + 1) cs = skipLines fuel rest := by
  rw [skipLines, start]
  rfl

theorem skipLines_comment (start : skipBlanks cs = '#' :: rest) :
    skipLines (fuel + 1) cs = skipLines fuel (rest.dropWhile isPlain) := by
  rw [skipLines, start]
  rfl

theorem skipLines_other (start : skipBlanks cs = c :: rest) (feed : c ≠ '\n') (hash : c ≠ '#')
    (single : ¬(c = '\r' ∧ rest.head? = some '\n')) : skipLines (fuel + 1) cs = c :: rest := by
  rw [skipLines, start]
  split <;> simp_all

end

theorem skipLines_suffix (fuel : Nat) (cs : List Char) : skipLines fuel cs <:+ cs := by
  induction fuel generalizing cs with
  | zero => exact List.suffix_refl cs
  | succ fuel ih =>
    have blanks : skipBlanks cs <:+ cs := List.dropWhile_suffix isBlank
    rcases start_cases (skipBlanks cs) with
      start | ⟨rest, start⟩ | ⟨rest, start⟩ | ⟨rest, start⟩ | ⟨c, rest, start, feed, hash, single⟩
    · rw [skipLines, start]
      exact List.nil_suffix
    · rw [start] at blanks
      rw [skipLines_feed start]
      exact (ih rest).trans ((List.suffix_cons _ rest).trans blanks)
    · rw [start] at blanks
      rw [skipLines_return start]
      exact (ih rest).trans (((List.suffix_cons _ rest).trans (List.suffix_cons _ _)).trans blanks)
    · rw [start] at blanks
      rw [skipLines_comment start]
      exact (ih _).trans ((List.dropWhile_suffix isPlain).trans
        ((List.suffix_cons _ rest).trans blanks))
    · rw [skipLines_other start feed hash single, ← start]
      exact blanks

theorem skipLines_append (whole : WholeLines cs) (enough : cs.length ≤ fuel) (more : fuel ≤ fuel')
    (left : skipLines fuel cs ≠ []) : skipLines fuel' (cs ++ tail) = skipLines fuel cs ++ tail := by
  induction fuel generalizing fuel' cs with
  | zero => exact absurd (List.length_eq_zero_iff.mp (Nat.le_zero.mp enough)) left
  | succ fuel ih =>
    obtain ⟨fuel', rfl⟩ : ∃ n, fuel' = n + 1 := ⟨fuel' - 1, by omega⟩
    have more : fuel ≤ fuel' := by omega
    have ends : Terminated cs := by
      refine whole ?_
      rintro rfl
      exact left rfl
    have start' : skipBlanks (cs ++ tail) = _ := ends.skipBlanks_append
    have whole := ends.skipBlanks.wholeLines
    have shorter : (skipBlanks cs).length ≤ cs.length :=
      (List.dropWhile_suffix isBlank).length_le
    rcases start_cases (skipBlanks cs) with
      start | ⟨rest, start⟩ | ⟨rest, start⟩ | ⟨rest, start⟩ | ⟨c, rest, start, feed, hash, single⟩
    · exact absurd start ends.skipBlanks.ne_nil
    · rw [start] at start' whole shorter
      rw [skipLines_feed start] at left ⊢
      rw [skipLines_feed start']
      exact ih whole.behind (by simp at shorter; omega) more left
    · rw [start] at start' whole shorter
      rw [skipLines_return start] at left ⊢
      rw [skipLines_return start']
      exact ih whole.behind.behind (by simp at shorter; omega) more left
    · have ended := ends.skipBlanks
      rw [start] at shorter ended
      rw [start, List.cons_append] at start'
      have ended := ended.behind (by decide)
      have length := (List.dropWhile_suffix (l := rest) isPlain).length_le
      rw [skipLines_comment start] at left ⊢
      rw [skipLines_comment start', ended.dropWhile_append (by decide)]
      exact ih (ended.dropWhile (by decide)).wholeLines (by simp at shorter; omega) more left
    · rw [start] at start' whole
      rw [skipLines_other start feed hash single,
        skipLines_other start' feed hash (single_append whole single)]
      rfl

/-- Between the items of an array, as far as the next character that counts. -/
theorem skipLines_kept (tail : List Char) (ends : Terminated cs)
    (left : skipLines cs.length cs ≠ []) :
    Terminated (skipLines cs.length cs) ∧
      skipLines (cs ++ tail).length (cs ++ tail) = skipLines cs.length cs ++ tail :=
  ⟨ends.of_suffix (skipLines_suffix cs.length cs) left,
    skipLines_append ends.wholeLines (Nat.le_refl _) (by simp) left⟩

theorem skipComment_append (tail : List Char) (ends : Terminated cs) :
    Terminated (skipComment cs) ∧ skipComment (cs ++ tail) = skipComment cs ++ tail := by
  obtain ⟨c, rest, rfl⟩ := List.exists_cons_of_ne_nil ends.ne_nil
  by_cases hash : c = '#'
  · subst hash
    have ends := ends.behind (by decide)
    exact ⟨ends.dropWhile (by decide), ends.dropWhile_append (by decide)⟩
  · have kept : ∀ rest, skipComment (c :: rest) = c :: rest := by
      intro rest
      rw [skipComment]
      rintro rest' same
      exact hash (List.cons.inj same).1
    rw [List.cons_append, kept, kept]
    exact ⟨ends, rfl⟩

/-- Here, and only here, is the line end itself read. -/
theorem lineEnd_append (tail : List Char) (ends : Terminated cs) (ended : lineEnd cs = some rest) :
    WholeLines rest ∧ lineEnd (cs ++ tail) = some (rest ++ tail) := by
  unfold lineEnd at ended
  split at ended
  · exact absurd rfl ends.ne_nil
  · cases ended
    exact ⟨ends.wholeLines.behind, rfl⟩
  · cases ended
    exact ⟨ends.wholeLines.behind.behind, rfl⟩
  · cases ended

theorem restOfLine_append (tail : List Char) (ends : Terminated cs)
    (ended : restOfLine cs = some rest) :
    WholeLines rest ∧ restOfLine (cs ++ tail) = some (rest ++ tail) := by
  obtain ⟨ended', same⟩ := skipComment_append tail ends.skipBlanks
  rw [restOfLine, ends.skipBlanks_append, same]
  exact lineEnd_append tail ended' ended

end Interop.Toml
