import Interop.Proofs.Text.Encoding
import Interop.Proofs.World.Characters

/-!
Text that script code passes to slots of characters. An array of characters takes any text, one
element for each unit, and is read as that text from then on, until it is written to. A single
character takes a text of one unit and no other.
-/
namespace Interop

open Marshal (IsMade charOf? convert elementKind? toPrimitive? toScript unwrap)
open Text (isAstral units)

variable {w w' : World} {target : TypeId} {ref : ObjectRef} {text : String}

namespace Marshal

/-- Passes a script value to a slot of a type. -/
def pass (value : ScriptValue) (target : TypeId) : Task BridgeError Value := do
  let given ← unwrap value
  convert given target

theorem pass_text (text : String) (target : TypeId) :
    pass (.string text) target w = convert (.string text) target w := by
  rw [pass, unwrap, pure_bind]

theorem charOf?_text_eq_some_iff {v : Value} :
    charOf? (.string text) = some v ↔ ∃ unit, units text = [unit] ∧ v = .char unit := by
  simp only [charOf?]
  split
  · next unit one => simp [one, eq_comm]
  · next other =>
    constructor
    · intro found
      cases found
    · rintro ⟨unit, one, _⟩
      exact absurd one (other unit)

/-- A character takes a text of one unit, and no other. -/
theorem pass_text_char_iff (isChar : w.registry.primitiveKind? target = some .char) {v : Value} :
    pass (.string text) target w = .ok v w' ↔
      w' = w ∧ ∃ unit, units text = [unit] ∧ v = .char unit := by
  rw [pass_text, convert_primitive_eq isChar, ← charOf?_text_eq_some_iff, toPrimitive?]
  cases charOf? (.string text) with
  | none => simp
  | some u => simp [eq_comm, and_comm]

/-- What an array of a text is read as. -/
theorem toScript_units (isChar : elementKind? w.registry ref.cls = some .char)
    (elements : w.heap.elements ref = (units text).map Value.char) :
    (toScript (.object ref) : Task BridgeError _) w = .ok (.string text) w := by
  rw [toScript_chars isChar elements, Text.ofUnits_units]

end Marshal

open Marshal (pass)

/-- Texts on their way to characters. -/
structure World.KeepsTexts (w : World) : Prop where
  /-- An array of characters is made of any text: an element for each unit, which is one for each
  character and one more for each beyond the basic plane. It is read as the same text, now and at
  any later moment that finds the elements as they are. -/
  array : ∀ {target}, elementKind? w.registry target = some .char → ∀ text, ∃ copy w',
    pass (.string text) target w = .ok (.object copy) w' ∧ w.Allocates w' ∧
      IsMade w.heap.objects.length target w' copy ∧
      w'.heap.elements copy = (units text).map Value.char ∧
      (w'.heap.elements copy).length = text.length + text.toList.countP isAstral ∧
      ∀ w'', Later w' w'' → w''.heap.elements copy = w'.heap.elements copy →
        (toScript (.object copy) : Task BridgeError _) w'' = .ok (.string text) w''
  /-- A single character is made of a text of one unit, and of no other; such a text is one
  character of the basic plane. -/
  character : ∀ {target}, w.registry.primitiveKind? target = some .char → ∀ text,
    (Task.Succeeds (pass (.string text) target) w ↔ (units text).length = 1) ∧
      ((units text).length = 1 ↔ ∃ c, text = String.singleton c ∧ isAstral c = false) ∧
      ∀ {v w'}, pass (.string text) target w = .ok v w' →
        w' = w ∧ ∃ unit, units text = [unit] ∧ v = .char unit

/-- Types stay, so an array of characters is one from then on. -/
theorem elementKind?_mono {kind : PrimitiveKind} (grows : w.Grows w')
    (ofKind : elementKind? w.registry target = some kind) :
    elementKind? w'.registry target = some kind := by
  obtain ⟨c, array, primitive⟩ := Option.bind_eq_some_iff.mp ofKind
  obtain ⟨t, found, own⟩ := Option.bind_eq_some_iff.mp primitive
  rw [elementKind?, Registry.component?_mono grows.registry array, Option.bind_some,
    Registry.primitiveKind?, grows.registry found, Option.bind_some, own]

/-- At every moment text survives arrays of characters, and a character takes a text of one unit
only. -/
theorem texts_kept (moment : Moment w) : w.KeepsTexts := by
  have sound := moment.sound
  constructor
  case array =>
    intro target isChar text
    obtain ⟨c, array, kind⟩ := Option.bind_eq_some_iff.mp isChar
    have made := Marshal.convert_text_ok sound array kind text
    have isMade := Marshal.isMade_withArray w target ((units text).map Value.char)
    have elements := Marshal.elements_withArray w target ((units text).map Value.char)
    have known : w.heap.Knows (.string text) := trivial
    obtain ⟨sound', grows, _⟩ := (Marshal.safe_convert sound known target).ok made
    refine ⟨_, _, (Marshal.pass_text text target).trans made, .withArray .., isMade, elements, ?_,
      ?_⟩
    · rw [elements, List.length_map, Text.length_units]
    · intro w'' later unwritten
      have sameKind := elementKind?_mono (grows.trans (later.grows sound').2) isChar
      exact Marshal.toScript_units (isMade.cls ▸ sameKind) (unwritten.trans elements)
  case character =>
    intro target isChar text
    refine ⟨?_, Text.length_units_eq_one_iff,
      fun passed => (Marshal.pass_text_char_iff isChar).mp passed⟩
    rw [List.length_eq_one_iff]
    constructor
    · rintro ⟨v, w', passed⟩
      obtain ⟨_, unit, one, _⟩ := (Marshal.pass_text_char_iff isChar).mp passed
      exact ⟨unit, one⟩
    · rintro ⟨unit, one⟩
      exact ⟨.char unit, w, (Marshal.pass_text_char_iff isChar).mpr ⟨rfl, unit, one, rfl⟩⟩

/-- A letter and a character beyond the basic plane. -/
def smile : String := "a😀"

/-- The text takes three units and comes back; it is no character, and its letter alone is one. -/
theorem texts_lettersWorld :
    Moment lettersWorld ∧ lettersWorld.KeepsTexts ∧
      (∃ copy w', pass (.string smile) ⟨20⟩ lettersWorld = .ok (.object copy) w' ∧
        w'.heap.elements copy = pairedUnits.map Value.char ∧
        (toScript (.object copy) : Task BridgeError _) w' = .ok (.string smile) w') ∧
      ¬Task.Succeeds (pass (.string smile) (.primitive .char)) lettersWorld ∧
      Task.Succeeds (pass (.string "a") (.primitive .char)) lettersWorld := by
  have moment := moment_of_reachable reachable_lettersWorld
  have kept := texts_kept moment
  have isChar : lettersWorld.registry.primitiveKind? (.primitive .char) = some .char := by
    decide +kernel
  have written : units smile = pairedUnits := by decide +kernel
  refine ⟨moment, kept, ?_, ?_, ?_⟩
  · obtain ⟨copy, w', passed, _, _, elements, _, read⟩ := kept.array lettersWorld_chars smile
    exact ⟨copy, w', passed, by rw [elements, written], read w' .now rfl⟩
  · rw [(kept.character isChar smile).1, written]
    decide
  · exact (kept.character isChar "a").1.mpr (by decide +kernel)

end Interop
