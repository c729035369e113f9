import Mathlib.Data.Set.List
import Interop.Proofs.Text.Surrogates
import Interop.Proofs.World.Conversions

/-!
Characters that are read into script and written back. Native characters are arbitrary units, and
script text has no surrogates without partners: so a character, or an array of characters, comes
back as it was if its surrogates stand in pairs, and otherwise with exactly the others replaced.
-/
namespace Interop

open Marshal (IsMade convert convertAlong elementKind? marshalArray toScript typedArray unwrap)
open Text (WellPaired isHighSurrogate isLowSurrogate repaired replacementUnit units)

variable {w : World} {r : Registry} {v : Value} {c target : TypeId} {ref : ObjectRef}
  {text : String}

namespace Marshal

/-- Reads a native value into script and writes what it has become to a slot of a type. -/
def roundTrip (v : Value) (target : TypeId) : Task BridgeError Value := do
  let read ← toScript v
  let given ← unwrap read
  convert given target

/-- A primitive type accepts the values of its kind. -/
theorem accepts_primitive_iff {kind : PrimitiveKind}
    (isPrimitive : r.primitiveKind? c = some kind) :
    r.accepts c v = true ↔ v.primitiveKind? = some kind := by
  obtain ⟨t, found, kind⟩ := Option.bind_eq_some_iff.mp isPrimitive
  simp [Registry.accepts, found, kind]

theorem accepts_char_iff (isChar : r.primitiveKind? c = some .char) :
    r.accepts c v = true ↔ ∃ unit, v = .char unit := by
  rw [accepts_primitive_iff isChar]
  cases v <;> simp [Value.primitiveKind?]

/-- Where an array type is there, a new array of it can be made of what its component accepts. -/
theorem marshalArray_made {elements : List Value} (sound : w.Sound)
    (array : w.registry.component? target = some c)
    (accepted : ∀ v ∈ elements, w.registry.accepts c v = true) :
    marshalArray c elements w = .ok (.object (w.nextRef target)) (w.withArray target elements) := by
  have coherent := sound.registry.coherent
  obtain ⟨t, found, isArray⟩ := Option.bind_eq_some_iff.mp array
  have entry := coherent.arrays.mpr ⟨t, found, TypeInfo.component?_eq.mp isArray⟩
  obtain ⟨u, w', success⟩ := succeeds_marshalArray entry accepted
  obtain ⟨rfl, rfl⟩ := marshalArray_ok coherent array success
  exact success

theorem convert_text (array : w.registry.component? target = some c)
    (isChar : w.registry.primitiveKind? c = some .char) :
    convert (.string text) target w = marshalArray c ((units text).map Value.char) w := by
  obtain ⟨t, found, isArray⟩ := Option.bind_eq_some_iff.mp array
  have kind := TypeInfo.component?_eq.mp isArray
  rw [convert, Task.get_bind, convertAlong, Task.get_bind]
  simp only [found, kind, isChar, if_true]

/-- A text becomes a new array of its units. -/
theorem convert_text_ok (sound : w.Sound) (array : w.registry.component? target = some c)
    (isChar : w.registry.primitiveKind? c = some .char) (text : String) :
    convert (.string text) target w = .ok (.object (w.nextRef target))
      (w.withArray target ((units text).map Value.char)) := by
  have accepted : ∀ v ∈ (units text).map Value.char, w.registry.accepts c v = true := by
    intro v member
    obtain ⟨unit, _, rfl⟩ := List.mem_map.mp member
    exact (accepts_char_iff isChar).mpr ⟨unit, rfl⟩
  rw [convert_text array isChar]
  exact marshalArray_made sound array accepted

theorem typedArray_chars (us : List UInt16) :
    typedArray .char (us.map Value.char) = .string (Text.ofUnits us) := by
  simp [typedArray, List.filterMap_map]

theorem toScript_chars {us : List UInt16} (isChar : elementKind? w.registry ref.cls = some .char)
    (elements : w.heap.elements ref = us.map Value.char) :
    (toScript (.object ref) : Task BridgeError _) w = .ok (.string (Text.ofUnits us)) w := by
  rw [toScript, Task.get_bind, isChar, elements, ← typedArray_chars]
  rfl

/-- The elements of an array of characters are characters. -/
theorem exists_units (sound : w.Sound) (held : w.heap.Holds ref)
    (array : w.registry.component? ref.cls = some c)
    (isChar : w.registry.primitiveKind? c = some .char) :
    ∃ us : List UInt16, w.heap.elements ref = us.map Value.char := by
  obtain ⟨c', array', elements⟩ := sound.array held (sound.isArray_of_component held array)
  cases array.symm.trans array'
  have chars : w.heap.elements ref ∈ Set.range (List.map Value.char) := by
    rw [Set.range_list_map]
    intro v member
    obtain ⟨unit, rfl⟩ := (accepts_char_iff isChar).mp (elements v member).2
    exact Set.mem_range_self unit
  obtain ⟨us, same⟩ := chars
  exact ⟨us, same.symm⟩

theorem convert_primitive_eq {kind : PrimitiveKind}
    (isPrimitive : w.registry.primitiveKind? target = some kind) (v : Value) :
    convert v target w =
      match toPrimitive? v kind with
      | some u => .ok u w
      | none => .error (mismatch w.registry v target) w := by
  rw [convert, Task.get_bind]
  exact convertAlong_primitive isPrimitive _ v

theorem convert_primitive {kind : PrimitiveKind} {u : Value}
    (isPrimitive : w.registry.primitiveKind? target = some kind)
    (converted : toPrimitive? v kind = some u) : convert v target w = .ok u w := by
  rw [convert_primitive_eq isPrimitive, converted]

/-- A single character comes back, or what stands in for a surrogate. -/
theorem roundTrip_char (isChar : w.registry.primitiveKind? target = some .char) (unit : UInt16) :
    roundTrip (.char unit) target w =
      .ok (.char (if isHighSurrogate unit || isLowSurrogate unit then replacementUnit else unit))
        w := by
  have one := Text.units_ofUnits_singleton unit
  have read : (toScript (.char unit) : Task BridgeError _) w =
      .ok (.string (Text.ofUnits [unit])) w := rfl
  generalize (if isHighSurrogate unit || isLowSurrogate unit then replacementUnit else unit) = back
    at one ⊢
  have converted : toPrimitive? (.string (Text.ofUnits [unit])) .char = some (.char back) := by
    simp only [toPrimitive?, charOf?, one]
  rw [roundTrip, Task.bind_ok read, unwrap]
  exact convert_primitive isChar converted

/-- An array of characters comes back as a new array of its type. -/
theorem roundTrip_chars {us : List UInt16} (sound : w.Sound)
    (isChar : elementKind? w.registry ref.cls = some .char)
    (elements : w.heap.elements ref = us.map Value.char) :
    roundTrip (.object ref) ref.cls w = .ok (.object (w.nextRef ref.cls))
      (w.withArray ref.cls ((repaired us).map Value.char)) := by
  obtain ⟨c, array, kind⟩ := Option.bind_eq_some_iff.mp isChar
  have written := convert_text_ok sound array kind (Text.ofUnits us)
  rw [Text.units_ofUnits] at written
  rw [roundTrip, Task.bind_ok (toScript_chars isChar elements), unwrap]
  exact written

end Marshal

open Marshal (roundTrip)

theorem charList_inj {us us' : List UInt16} (same : us.map Value.char = us'.map Value.char) :
    us = us' :=
  List.map_injective_iff.mpr (fun _ _ => Value.char.inj) same

/-- Characters on their way to script and back. -/
structure World.ReturnsCharacters (w : World) : Prop where
  single : ∀ {target}, w.registry.primitiveKind? target = some .char → ∀ unit : UInt16,
    roundTrip (.char unit) target w =
      .ok (.char (if isHighSurrogate unit || isLowSurrogate unit then replacementUnit else unit)) w
  /-- An array of characters comes back as a new array of its type, with the surrogates without
  partners replaced, and this array is all that is added to the world. -/
  array : ∀ {ref}, w.heap.Holds ref → elementKind? w.registry ref.cls = some .char →
    ∃ us copy w', w.heap.elements ref = us.map Value.char ∧
      roundTrip (.object ref) ref.cls w = .ok (.object copy) w' ∧
      w' = w.withArray ref.cls ((repaired us).map Value.char) ∧
      IsMade w.heap.objects.length ref.cls w' copy ∧
      w'.heap.elements copy = (repaired us).map Value.char ∧
      (w'.heap.elements copy = w.heap.elements ref ↔ WellPaired us)

/-- At every moment characters return from script unchanged, unless they are surrogates without
partners. -/
theorem characters_returned (moment : Moment w) : w.ReturnsCharacters := by
  have sound := moment.sound
  constructor
  case single => exact Marshal.roundTrip_char
  case array =>
    intro ref held isChar
    obtain ⟨c, array, kind⟩ := Option.bind_eq_some_iff.mp isChar
    obtain ⟨us, elements⟩ := Marshal.exists_units sound held array kind
    have copied := Marshal.elements_withArray w ref.cls ((repaired us).map Value.char)
    refine ⟨us, _, _, elements, Marshal.roundTrip_chars sound isChar elements, rfl,
      Marshal.isMade_withArray .., copied, ?_⟩
    rw [copied, elements, ← Text.repaired_eq_self_iff]
    exact ⟨charList_inj, congrArg _⟩

/-- A letter and a pair of surrogates. -/
def pairedUnits : List UInt16 := [0x61, 0xd83d, 0xde00]

/-- The same pair the wrong way round. -/
def crossedUnits : List UInt16 := [0xde00, 0x61, 0xd83d]

/-- A world with two arrays of characters. -/
def lettersWorld : World :=
  (Action.newArray (.primitive .char) (crossedUnits.map Value.char)).apply
    ((Action.newArray (.primitive .char) (pairedUnits.map Value.char)).apply
      (.initial .default .always))

def pairedLetters : ObjectRef := ⟨0, ⟨20⟩⟩
def crossedLetters : ObjectRef := ⟨1, ⟨20⟩⟩

theorem reachable_lettersWorld : Reachable lettersWorld := by
  have known : ∀ (w : World) (us : List UInt16), ∀ v ∈ us.map Value.char, w.heap.Knows v := by
    intro w us v member
    obtain ⟨unit, _, rfl⟩ := List.mem_map.mp member
    trivial
  exact .step (.step (.initial _ _) (.newArray _ _) (known _ _)) (.newArray _ _) (known _ _)

theorem lettersWorld_chars : elementKind? lettersWorld.registry ⟨20⟩ = some .char := by
  decide +kernel

/-- The letter and the pair come back, and of the pair the wrong way round neither does. -/
theorem characters_lettersWorld :
    Moment lettersWorld ∧ lettersWorld.ReturnsCharacters ∧
      (∃ copy w', roundTrip (.object pairedLetters) ⟨20⟩ lettersWorld = .ok (.object copy) w' ∧
        w'.heap.elements copy = pairedUnits.map Value.char) ∧
      ∃ copy w', roundTrip (.object crossedLetters) ⟨20⟩ lettersWorld = .ok (.object copy) w' ∧
        w'.heap.elements copy = [.char 0xfffd, .char 0x61, .char 0xfffd] := by
  have moment := moment_of_reachable reachable_lettersWorld
  have returns := characters_returned moment
  refine ⟨moment, returns, ?_, ?_⟩
  · have held : lettersWorld.heap.Holds pairedLetters := ⟨_, rfl, rfl⟩
    obtain ⟨us, copy, w', elements, returned, _, _, copied, _⟩ :=
      returns.array held lettersWorld_chars
    obtain rfl : pairedUnits = us := charList_inj elements
    exact ⟨copy, w', returned, copied⟩
  · have held : lettersWorld.heap.Holds crossedLetters := ⟨_, rfl, rfl⟩
    obtain ⟨us, copy, w', elements, returned, _, _, copied, _⟩ :=
      returns.array held lettersWorld_chars
    obtain rfl : crossedUnits = us := charList_inj elements
    exact ⟨copy, w', returned, copied⟩

/-- A surrogate without a partner does not come back, alone or in an array. -/
theorem lone_surrogate_lost :
    Reachable lettersWorld ∧
      roundTrip (.char 0xd800) (.primitive .char) lettersWorld = .ok (.char 0xfffd) lettersWorld ∧
      ∃ copy w', roundTrip (.object crossedLetters) ⟨20⟩ lettersWorld = .ok (.object copy) w' ∧
        w'.heap.elements copy ≠ lettersWorld.heap.elements crossedLetters := by
  have reachable := reachable_lettersWorld
  have chars : elementKind? lettersWorld.registry crossedLetters.cls = some .char :=
    lettersWorld_chars
  have elements : lettersWorld.heap.elements crossedLetters = crossedUnits.map Value.char := rfl
  have returned := Marshal.roundTrip_chars reachable.sound chars elements
  refine ⟨reachable, Marshal.roundTrip_char (by decide +kernel) 0xd800, _, _, returned, ?_⟩
  rw [Marshal.elements_withArray, elements]
  intro same
  exact absurd (charList_inj same) (by decide)

end Interop
