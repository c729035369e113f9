import Interop.Config.Document
import Interop.Proofs.Toml.Written

/-!
Settings are read back as they were written. The size of the cache is written if a document can
hold it, and not at all otherwise. The written table is read in the same way among any other tables,
of which none bears its name, since only the entry of that name is looked at.

This rests on one fact about the format, `Toml.lookup_parse?_writeTable`: a written table comes out
of a document with the entries that it was written with.
-/
namespace Interop

namespace Config

open Toml

variable {c : Config} {text : String}

theorem render_eq_ok_iff :
    c.render = .ok text ↔ writeTable? sectionName c.toEntries = some text := by
  unfold render
  cases writeTable? sectionName c.toEntries <;> simp

/-- No name needs quotes, and so only the size may be too much. -/
theorem isSome_render (c : Config) :
    (writeTable? sectionName c.toEntries).isSome = true ↔ c.classCacheSize ≤ maxInteger := by
  have names : isBareName sectionName = true ∧ isBareName "class_cache_size" = true ∧
      isBareName "memoize_distances" = true := by decide
  have bounds : isInteger c.classCacheSize = true ↔ c.classCacheSize ≤ maxInteger := by
    simp only [isInteger, Bool.and_eq_true, decide_eq_true_eq]
    omega
  simp [isSome_writeTable, toEntries, names, Value.word?, bounds]

theorem ofEntries?_toEntries (c : Config) : ofEntries? c.toEntries = some c := by
  simp [ofEntries?, toEntries, set?]

/-- Writing settings, reading them back, and reading them among other tables. -/
structure RoundTrips (c : Config) : Prop where
  written : (∃ text, c.render = .ok text) ↔ c.classCacheSize ≤ Nat.pow 2 63 - 1
  refused : ¬c.classCacheSize ≤ Nat.pow 2 63 - 1 → c.render = .error .unwritable
  read : ∀ text, c.render = .ok text → parse text =
    if 1 ≤ c.classCacheSize then .ok c else .error (.invalid .noCacheRoom)
  embedded : ∀ text, c.render = .ok text → ∀ before after, Surrounds sectionName before after →
    parse (before ++ text ++ after) = parse text

theorem surrounds_nothing : Surrounds sectionName "" "" := by decide +kernel

/-- Among other tables the settings are read, and only checked. -/
theorem parse_among (written : c.render = .ok text) {before after : String}
    (surrounds : Surrounds sectionName before after) :
    parse (before ++ text ++ after) = c.validate.map fun _ => c := by
  obtain ⟨document, read, found⟩ :=
    lookup_parse?_writeTable (render_eq_ok_iff.mp written) (by simp [toEntries]) surrounds
  simp only [parse, read, found, ofEntries?_toEntries]

theorem config_round_trips (c : Config) : RoundTrips c := by
  have alone : ∀ text, c.render = .ok text → parse text = c.validate.map fun _ => c := by
    intro text written
    have read := parse_among written surrounds_nothing
    rwa [String.empty_append, String.append_empty] at read
  have greatest : maxInteger = Nat.pow 2 63 - 1 := by decide
  have possible := c.isSome_render
  rw [greatest] at possible
  refine ⟨?_, ?_, ?_, ?_⟩
  · simp only [render_eq_ok_iff]
    rw [← possible, Option.isSome_iff_exists]
  · intro large
    have refused := Option.not_isSome_iff_eq_none.mp (possible.not.mpr large)
    rw [render, refused]
  · intro text written
    rw [alone text written, validate]
    by_cases none : c.classCacheSize = 0
    · rw [if_pos none, if_neg (by omega)]
      rfl
    · rw [if_neg none, if_pos (by omega)]
      rfl
  · intro text written before after surrounds
    rw [alone text written, parse_among written surrounds]

/-- A title, a table with an array over several lines, and after the settings another table. -/
example : Surrounds sectionName "t = 'x'\n[a]\ny = [\n1, # one\n]\n" "# more\n[[b]]\nz = 1" := by
  decide +kernel

end Config

end Interop
