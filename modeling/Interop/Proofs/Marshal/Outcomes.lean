import Interop.Proofs.Marshal.Legality

/-!
What a value becomes when it is converted. A primitive type takes a value over by the rules of its
kind, and a class or an interface takes what it accepts as it is. An array type takes null and its
own arrays as they are. For an array of another type or a text there is a new array; a component has
one array type, so the new array is of the type that was asked for.

Such new arrays are all that a conversion adds to the world, and each is there for the value or for
an element of an array that is copied. What a conversion gives is described by where it is found
afterwards, and stays so described while more arrays are added.
-/
namespace Interop

variable {w w' w'' : World} {ref : ObjectRef}

/-- The reference that a new object gets. -/
def World.nextRef (w : World) (cls : TypeId) : ObjectRef := ⟨w.heap.objects.length, cls⟩

/-- The world with one more array. -/
def World.withArray (w : World) (cls : TypeId) (elements : List Value) : World :=
  { w with heap := (w.heap.alloc ⟨cls, .elements elements, none⟩).2 }

/-- From the first world to the second nothing has happened but that arrays were added. -/
def World.Allocates (w w' : World) : Prop :=
  ∃ arrays, w' = { w with heap := { w.heap with objects := w.heap.objects ++ arrays } } ∧
    ∀ o ∈ arrays, ∃ elements, o.contents = .elements elements ∧ o.handler = none

namespace World.Allocates

theorem refl (w : World) : w.Allocates w := ⟨[], by simp, by simp⟩

theorem trans (first : w.Allocates w') (second : w'.Allocates w'') : w.Allocates w'' := by
  obtain ⟨arrays, rfl, made⟩ := first
  obtain ⟨arrays', rfl, made'⟩ := second
  refine ⟨arrays ++ arrays', by simp, ?_⟩
  simp only [List.forall_mem_append]
  exact ⟨made, made'⟩

theorem withArray (w : World) (cls : TypeId) (elements : List Value) :
    w.Allocates (w.withArray cls elements) :=
  ⟨[⟨cls, .elements elements, none⟩], rfl, by simp⟩

theorem registry (adds : w.Allocates w') : w'.registry = w.registry := by
  obtain ⟨_, rfl, _⟩ := adds
  rfl

theorem length_le (adds : w.Allocates w') : w.heap.objects.length ≤ w'.heap.objects.length := by
  obtain ⟨_, rfl, _⟩ := adds
  simp

theorem get? (adds : w.Allocates w') {o : Object} (found : w.heap.get? ref = some o) :
    w'.heap.get? ref = some o := by
  obtain ⟨_, rfl, _⟩ := adds
  have inRange : ref.address < w.heap.objects.length := (List.getElem?_eq_some_iff.mp found).1
  exact (List.getElem?_append_left inRange).trans found

theorem holds (adds : w.Allocates w') (held : w.heap.Holds ref) : w'.heap.Holds ref := by
  obtain ⟨o, found, cls⟩ := held
  exact ⟨o, adds.get? found, cls⟩

theorem elements (adds : w.Allocates w') (isArray : w.heap.isArray ref = true) :
    w'.heap.isArray ref = true ∧ w'.heap.elements ref = w.heap.elements ref := by
  cases found : w.heap.get? ref with
  | none => simp [Heap.isArray, found] at isArray
  | some o => simpa [Heap.isArray, Heap.elements, found, adds.get? found] using isArray

theorem elements_of_mem {v : Value} (adds : w.Allocates w') (member : v ∈ w.heap.elements ref) :
    w'.heap.elements ref = w.heap.elements ref := by
  cases found : w.heap.get? ref with
  | none => simp [Heap.elements, found] at member
  | some o => simp [Heap.elements, found, adds.get? found]

end World.Allocates

namespace Marshal

variable {r : Registry} {v u : Value} {c target : TypeId} {start start' : Nat}

/-- A new array of a type, at an address from `start` on. -/
structure IsMade (start : Nat) (target : TypeId) (w : World) (ref : ObjectRef) : Prop where
  cls : ref.cls = target
  fresh : start ≤ ref.address
  held : w.heap.Holds ref
  isArray : w.heap.isArray ref = true

/-- What a value becomes when it is converted to a type, as it is found afterwards. The arrays that
the conversion has made are at addresses from `start` on. -/
inductive Converted (start : Nat) (w : World) : TypeId → Value → Value → Prop where
  | primitive {target : TypeId} {kind : PrimitiveKind} {v u : Value}
      (isPrimitive : w.registry.primitiveKind? target = some kind)
      (converted : toPrimitive? v kind = some u) : Converted start w target v u
  | accepted {target : TypeId} {v : Value} (reference : w.registry.primitiveKind? target = none)
      (noArray : w.registry.component? target = none)
      (accepted : w.registry.accepts target v = true) : Converted start w target v v
  | null {target c : TypeId} (array : w.registry.component? target = some c) :
      Converted start w target .null .null
  | own {target c : TypeId} {ref : ObjectRef} (array : w.registry.component? target = some c)
      (same : ref.cls = target) : Converted start w target (.object ref) (.object ref)
  | copied {target c : TypeId} {source copy : ObjectRef}
      (array : w.registry.component? target = some c) (other : source.cls ≠ target)
      (isArray : w.heap.isArray source = true) (made : IsMade start target w copy)
      (count : (w.heap.elements source).length = (w.heap.elements copy).length)
      (each : ∀ {v u}, (v, u) ∈ (w.heap.elements source).zip (w.heap.elements copy) →
        Converted start w c v u) :
      Converted start w target (.object source) (.object copy)
  | units {target c : TypeId} {text : String} {copy : ObjectRef}
      (array : w.registry.component? target = some c)
      (char : w.registry.primitiveKind? c = some .char) (made : IsMade start target w copy)
      (elements : w.heap.elements copy = (Text.units text).map Value.char) :
      Converted start w target (.string text) (.object copy)

/-- The arrays that were made on the way from a value to what it has become, by their addresses: a
new array for the value, and those that were made for the elements of a copied one. -/
inductive MadeFor (start : Nat) (w : World) : TypeId → Value → Value → Nat → Prop where
  | whole {target : TypeId} {v : Value} {copy : ObjectRef} (made : IsMade start target w copy) :
      MadeFor start w target v (.object copy) copy.address
  | element {target c : TypeId} {source copy : ObjectRef} {v u : Value} {address : Nat}
      (array : w.registry.component? target = some c) (made : IsMade start target w copy)
      (paired : (v, u) ∈ (w.heap.elements source).zip (w.heap.elements copy))
      (inside : MadeFor start w c v u address) :
      MadeFor start w target (.object source) (.object copy) address

/-- All that a conversion has done which gave `u` for `v`. -/
structure HasConverted (w w' : World) (target : TypeId) (v u : Value) : Prop where
  adds : w.Allocates w'
  becomes : Converted w.heap.objects.length w' target v u
  onlyFor : ∀ {address}, w.heap.objects.length ≤ address → address < w'.heap.objects.length →
    MadeFor w.heap.objects.length w' target v u address

/-- A conversion that has made no array. -/
theorem HasConverted.of_same (becomes : Converted w.heap.objects.length w target v u) :
    HasConverted w w target v u :=
  ⟨.refl w, becomes, fun added inRange => absurd inRange (Nat.not_lt.mpr added)⟩

theorem IsMade.mono (made : IsMade start target w ref) (adds : w.Allocates w')
    (earlier : start' ≤ start) : IsMade start' target w' ref where
  cls := made.cls
  fresh := earlier.trans made.fresh
  held := adds.holds made.held
  isArray := (adds.elements made.isArray).1

theorem MadeFor.mono {address : Nat} (made : MadeFor start w target v u address)
    (adds : w.Allocates w') (earlier : start' ≤ start) :
    MadeFor start' w' target v u address := by
  induction made with
  | whole made => exact .whole (made.mono adds earlier)
  | element array made paired _ ih =>
    obtain ⟨ofSource, ofCopy⟩ := List.of_mem_zip paired
    refine .element (adds.registry ▸ array) (made.mono adds earlier) ?_ ih
    rw [adds.elements_of_mem ofSource, adds.elements_of_mem ofCopy]
    exact paired

/-- Arrays that are added later, or were there before, change nothing in what was converted. -/
theorem Converted.mono (converted : Converted start w target v u) (adds : w.Allocates w')
    (earlier : start' ≤ start) : Converted start' w' target v u := by
  have same := adds.registry
  induction converted with
  | primitive isPrimitive converted => exact .primitive (same ▸ isPrimitive) converted
  | accepted reference noArray accepted =>
    exact .accepted (same ▸ reference) (same ▸ noArray) (same ▸ accepted)
  | null array => exact .null (same ▸ array)
  | own array exactly => exact .own (same ▸ array) exactly
  | copied array other isArray made count _ ih =>
    obtain ⟨isArray', source⟩ := adds.elements isArray
    have copy := (adds.elements made.isArray).2
    refine .copied (same ▸ array) other isArray' (made.mono adds earlier)
      (by rw [source, copy, count]) ?_
    rw [source, copy]
    exact ih
  | units array char made elements =>
    exact .units (same ▸ array) (same ▸ char) (made.mono adds earlier)
      ((adds.elements made.isArray).2.trans elements)

theorem isMade_withArray (w : World) (target : TypeId) (elements : List Value) :
    IsMade w.heap.objects.length target (w.withArray target elements) (w.nextRef target) where
  cls := rfl
  fresh := le_rfl
  held := Heap.holds_alloc _ _
  isArray := by simp [World.withArray, World.nextRef, Heap.alloc, Heap.isArray, Heap.get?]

theorem elements_withArray (w : World) (target : TypeId) (elements : List Value) :
    (w.withArray target elements).heap.elements (w.nextRef target) = elements := by
  simp [World.withArray, World.nextRef, Heap.alloc, Heap.elements, Heap.get?]

/-- The one address that is added. -/
theorem eq_nextRef {cls : TypeId} {elements : List Value} {address : Nat}
    (added : w.heap.objects.length ≤ address)
    (inRange : address < (w.withArray cls elements).heap.objects.length) :
    address = (w.nextRef target).address := by
  simp only [World.withArray, Heap.alloc, List.length_append, List.length_singleton] at inRange
  exact Nat.le_antisymm (Nat.le_of_lt_succ inRange) added

/-- The array that is made is of the type that was asked for: its component has no other. -/
theorem marshalArray_ok {elements : List Value} (coherent : w.registry.Coherent)
    (array : w.registry.component? target = some c)
    (success : marshalArray c elements w = .ok u w') :
    u = .object (w.nextRef target) ∧ w' = w.withArray target elements := by
  obtain ⟨t, found, isArray⟩ := Option.bind_eq_some_iff.mp array
  have entry := coherent.arrays.mpr ⟨t, found, TypeInfo.component?_eq.mp isArray⟩
  have asked : Task.onRegistry (Registry.arrayOf c) w = .ok target w := by
    rw [Task.onRegistry, Registry.arrayOf_existing entry]
  obtain ⟨ref, w₁, made, done⟩ := Task.of_bind_ok (Task.of_mapError_ok success)
  cases done
  rw [newArray, Task.bind_ok asked, Task.get_bind] at made
  cases checked : w.registry.checkElements c 0 elements with
  | error e =>
    rw [checked] at made
    cases made
  | ok _ =>
    rw [checked] at made
    cases made
    exact ⟨rfl, rfl⟩

theorem convertEach_ok {convertOne : Value → Task BridgeError Value} {values converted : List Value}
    (one : ∀ {v u w w'}, World.registry w = r → convertOne v w = .ok u w' →
      HasConverted w w' c v u)
    (same : w.registry = r) (success : convertEach convertOne values w = .ok converted w') :
    w.Allocates w' ∧ List.Forall₂ (Converted w.heap.objects.length w' c) values converted ∧
      ∀ {address}, w.heap.objects.length ≤ address → address < w'.heap.objects.length →
        ∃ v u, (v, u) ∈ values.zip converted ∧
          MadeFor w.heap.objects.length w' c v u address := by
  induction values generalizing w converted with
  | nil =>
    cases success
    exact ⟨.refl _, .nil, fun added inRange => absurd inRange (Nat.not_lt.mpr added)⟩
  | cons v rest ih =>
    obtain ⟨u, w₁, first, success⟩ := Task.of_bind_ok success
    obtain ⟨us, w₂, others, success⟩ := Task.of_bind_ok success
    cases success
    obtain ⟨adds, becomes, onlyFor⟩ := one same first
    obtain ⟨adds', become, onlyFor'⟩ := ih (adds.registry.trans same) others
    refine ⟨adds.trans adds', .cons (becomes.mono adds' le_rfl) ?_, ?_⟩
    · exact become.imp fun _ _ one => one.mono (.refl _) adds.length_le
    · intro address added inRange
      -- The addresses up to those of `w₁` are of the first value, and the others of the rest.
      rcases Nat.lt_or_ge address w₁.heap.objects.length with early | late
      · exact ⟨v, u, List.mem_cons_self, (onlyFor added early).mono adds' le_rfl⟩
      · obtain ⟨v', u', paired, made⟩ := onlyFor' late inRange
        exact ⟨v', u', List.mem_cons_of_mem _ paired, made.mono (.refl _) adds.length_le⟩

/-- A primitive type takes a value over or refuses it, and nothing else happens. -/
theorem convertAlong_primitive {kind : PrimitiveKind}
    (isPrimitive : w.registry.primitiveKind? target = some kind) (components : List TypeId)
    (v : Value) :
    convertAlong target components v w =
      match toPrimitive? v kind with
      | some u => .ok u w
      | none => .error (mismatch w.registry v target) w := by
  obtain ⟨t, found, ofKind⟩ := Option.bind_eq_some_iff.mp isPrimitive
  have kind : t.kind = .primitive kind := by
    unfold TypeInfo.primitiveKind? at ofKind
    split at ofKind
    · next own =>
      cases ofKind
      exact own
    · cases ofKind
  rw [convertAlong, Task.get_bind]
  simp only [found, kind]
  cases toPrimitive? v _ <;> rfl

/-- A text has become an array of its units. -/
theorem HasConverted.units {text : String} (array : w.registry.component? target = some c)
    (char : w.registry.primitiveKind? c = some .char) :
    HasConverted w (w.withArray target ((Text.units text).map Value.char)) target (.string text)
      (.object (w.nextRef target)) where
  adds := .withArray ..
  becomes := .units array char (isMade_withArray ..) (elements_withArray ..)
  onlyFor := by
    intro address added inRange
    rw [eq_nextRef added inRange]
    exact .whole (isMade_withArray ..)

/-- The elements of an array have been converted, and the new array was made last. -/
theorem HasConverted.copied {source : ObjectRef} {us : List Value}
    (array : w.registry.component? target = some c) (other : source.cls ≠ target)
    (ofArray : w.heap.isArray source = true) (adds : w.Allocates w')
    (become : List.Forall₂ (Converted w.heap.objects.length w' c) (w.heap.elements source) us)
    (onlyFor : ∀ {address}, w.heap.objects.length ≤ address → address < w'.heap.objects.length →
      ∃ v u, (v, u) ∈ (w.heap.elements source).zip us ∧
        MadeFor w.heap.objects.length w' c v u address) :
    HasConverted w (w'.withArray target us) target (.object source)
      (.object (w'.nextRef target)) := by
  have last := World.Allocates.withArray w' target us
  have whole := adds.trans last
  have array' := whole.registry ▸ array
  have made := (isMade_withArray w' target us).mono (.refl _) adds.length_le
  obtain ⟨isArray, sources⟩ := whole.elements ofArray
  have elements := elements_withArray w' target us
  obtain ⟨count, pairs⟩ := List.forall₂_iff_zip.mp become
  refine ⟨whole, .copied array' other isArray made (by rw [sources, elements, count]) ?_, ?_⟩
  · rw [sources, elements]
    exact fun paired => (pairs paired).mono last le_rfl
  · intro address added inRange
    rcases Nat.lt_or_ge address w'.heap.objects.length with early | late
    · obtain ⟨v, u, paired, inside⟩ := onlyFor added early
      refine .element array' made ?_ (inside.mono last le_rfl)
      rw [sources, elements]
      exact paired
    · rw [eq_nextRef late inRange]
      exact .whole made

/-- Conversion to a type that is no array. -/
theorem convertAlong_innermost_ok {t : TypeInfo} (found : w.registry.get? target = some t)
    (noArray : t.component? = none) (success : convertAlong target [] v w = .ok u w') :
    w' = w ∧ Converted start w target v u := by
  rw [convertAlong, Task.get_bind] at success
  simp only [found] at success
  have none : w.registry.component? target = none := by simp [Registry.component?, found, noArray]
  cases kind : t.kind with
  | primitive k =>
    simp only [kind] at success
    have isPrimitive : w.registry.primitiveKind? target = some k := by
      simp [Registry.primitiveKind?, found, TypeInfo.primitiveKind?, kind]
    cases converted : toPrimitive? v k with
    | none =>
      rw [converted] at success
      cases success
    | some u =>
      rw [converted] at success
      cases success
      exact ⟨rfl, .primitive isPrimitive converted⟩
  | cls | interface =>
    simp only [kind] at success
    have reference : w.registry.primitiveKind? target = .none := by
      simp [Registry.primitiveKind?, found, TypeInfo.primitiveKind?, kind]
    split at success
    · next accepted =>
      cases success
      exact ⟨rfl, .accepted reference none accepted⟩
    · cases success
  | array c => simp [TypeInfo.component?, kind] at noArray

/-- One level of a conversion to an array type, if the level below gives what it should. -/
theorem convertAlong_array_ok {components : List TypeId}
    (deeper : ∀ {v u w₁ w'}, World.registry w₁ = w.registry →
      convertAlong c components v w₁ = .ok u w' → HasConverted w₁ w' c v u)
    (coherent : w.registry.Coherent) (array : w.registry.component? target = some c)
    (success : convertAlong target (c :: components) v w = .ok u w') :
    HasConverted w w' target v u := by
  obtain ⟨t, found, isArray⟩ := Option.bind_eq_some_iff.mp array
  rw [convertAlong, Task.get_bind] at success
  simp only [found, TypeInfo.component?_eq.mp isArray] at success
  cases v with
  | null =>
    cases success
    exact .of_same (.null array)
  | object source =>
    simp only at success
    split at success
    · next same =>
      cases success
      exact .of_same (.own array same)
    · next other =>
      split at success
      · next ofArray =>
        obtain ⟨us, w₁, each, made⟩ := Task.of_bind_ok success
        obtain ⟨adds, become, onlyFor⟩ := convertEach_ok deeper rfl each
        have array' : w₁.registry.component? target = some c := adds.registry ▸ array
        obtain ⟨rfl, rfl⟩ := marshalArray_ok (adds.registry ▸ coherent) array' made
        exact .copied array other ofArray adds become onlyFor
      · cases success
  | string text =>
    simp only at success
    split at success
    · next char =>
      obtain ⟨rfl, rfl⟩ := marshalArray_ok coherent array success
      exact .units array char
    · cases success
  | _ => cases success

theorem convertAlong_ok {components : List TypeId} (coherent : r.Coherent)
    (nested : Nested r target components) (same : w.registry = r)
    (success : convertAlong target components v w = .ok u w') :
    HasConverted w w' target v u := by
  induction nested generalizing v u w w' with
  | innermost found noArray =>
    subst same
    obtain ⟨rfl, becomes⟩ := convertAlong_innermost_ok found noArray success
    exact .of_same becomes
  | array component _ ih =>
    subst same
    exact convertAlong_array_ok (fun same deeper => ih same deeper) coherent component success

/-- A conversion that succeeds has added arrays at most, and given what the value becomes. -/
theorem convert_ok (settled : w.registry.Settled) (success : convert v target w = .ok u w') :
    HasConverted w w' target v u := by
  rw [convert, Task.get_bind] at success
  cases found : w.registry.get? target with
  | none =>
    rw [convertAlong, Task.get_bind] at success
    simp only [found] at success
    cases success
  | some t =>
    exact convertAlong_ok settled.coherent (nested_components settled found) rfl success

end Marshal

end Interop
