import Interop.Proofs.Registry.Naming
import Interop.Proofs.World.Texts

/-!
Primitive values that are read into script and written back, other than characters. Script code has
no bytes: it gets them as shorts, and they are narrowed again on the way back. An array of
primitives becomes a typed array with all its elements, since they are of its component type at
every moment, and comes back as a new array of its class.

An array of bytes travels as an array of shorts, whose type is made on first use. Where another type
has taken its name by then, the array of bytes does not come back.
-/
namespace Interop

open Marshal (IsMade convert convertAlong convertEach elementKind? marshalArray newArray roundTrip
  toPrimitive? toScript typedArray typedElements unwrap)

variable {w w' : World} {r r' : Registry} {v : Value} {a c target : TypeId} {ref : ObjectRef}
  {kind : PrimitiveKind} {elements : List Value}

/-- The kind in which script code gets the values of a kind. -/
def PrimitiveKind.delivered : PrimitiveKind → PrimitiveKind
  | .byte => .short
  | kind => kind

/-- The value that script code gets for a primitive one. -/
def Value.delivered : Value → Value
  | .byte v => .short v.toInt16
  | v => v

/-- Singles are doubles on their way, and are taken to come back from that as they were. -/
def Value.Exact : Value → Prop
  | .float v => v.toFloat.toFloat32 = v
  | _ => True

namespace Marshal

theorem unwrap_toScript (ofKind : v.primitiveKind? = some kind) (noChar : kind ≠ .char) :
    (toScript v >>= unwrap : Task BridgeError Value) w = .ok v.delivered w := by
  cases v with
  | char unit =>
    cases ofKind
    exact absurd rfl noChar
  | null | void | string | object => cases ofKind
  | _ => rfl

/-- Narrowed to its own kind, a delivered value is what it was. -/
theorem toPrimitive?_delivered (ofKind : v.primitiveKind? = some kind) (noChar : kind ≠ .char)
    (exact : v.Exact) : toPrimitive? v.delivered kind = some v := by
  cases v with
  | char unit =>
    cases ofKind
    exact absurd rfl noChar
  | null | void | string | object => cases ofKind
  | float x =>
    cases ofKind
    exact congrArg (some ∘ Value.float) exact
  | boolean | long | double =>
    cases ofKind
    rfl
  | byte | short | int =>
    cases ofKind
    simp [toPrimitive?, Value.delivered, Numeric.of?, Value.integer?, Numeric.toKind?]

theorem roundTrip_primitive (ofKind : v.primitiveKind? = some kind) (noChar : kind ≠ .char)
    (isPrimitive : w.registry.primitiveKind? target = some kind) (exact : v.Exact) :
    roundTrip v target w = .ok v w := by
  have given := unwrap_toScript (w := w) ofKind noChar
  rw [roundTrip, ← bind_assoc, Task.bind_ok given]
  exact convert_primitive isPrimitive (toPrimitive?_delivered ofKind noChar exact)

/-- Elements that are taken one by one out of a list of values, all of which they are. -/
theorem map_filterMap_delivered {α : Type} {take : Value → Option α} {make : α → Value}
    (all : ∀ v ∈ elements, (take v).map make = some v.delivered) :
    (elements.filterMap take).map make = elements.map Value.delivered := by
  induction elements with
  | nil => rfl
  | cons v rest ih =>
    obtain ⟨first, others⟩ := List.forall_mem_cons.mp all
    obtain ⟨x, taken, made⟩ := Option.map_eq_some_iff.mp first
    rw [List.filterMap_cons_some taken, List.map_cons, List.map_cons, made, ih others]

/-- A typed array has all the elements of the array it was made of. -/
theorem typedArray_delivered (noChar : kind ≠ .char) (noVoid : kind ≠ .void)
    (ofKind : ∀ v ∈ elements, v.primitiveKind? = some kind) :
    ∃ items, typedArray kind elements = .typedArray items ∧
      typedElements items = (kind.delivered, elements.map Value.delivered) := by
  cases kind with
  | char => exact absurd rfl noChar
  | void => exact absurd rfl noVoid
  | _ =>
    refine ⟨_, rfl, Prod.ext rfl (map_filterMap_delivered fun v member => ?_)⟩
    have own := ofKind v member
    cases v <;> cases own
    rfl

theorem toScript_typedArray {items : TypedArray}
    (isArray : elementKind? w.registry ref.cls = some kind)
    (typed : typedArray kind (w.heap.elements ref) = .typedArray items) :
    (toScript (.object ref) : Task BridgeError _) w = .ok (.typedArray items) w := by
  rw [toScript, Task.get_bind, isArray, ← typed]
  rfl

/-- The elements of an array of primitives are of its kind. -/
theorem elements_ofKind (sound : w.Sound) (held : w.heap.Holds ref)
    (isArray : elementKind? w.registry ref.cls = some kind) :
    ∀ v ∈ w.heap.elements ref, v.primitiveKind? = some kind := by
  obtain ⟨c, array, primitive⟩ := Option.bind_eq_some_iff.mp isArray
  obtain ⟨c', array', elements⟩ := sound.array held (sound.isArray_of_component held array)
  cases array.symm.trans array'
  exact fun v member => (accepts_primitive_iff primitive).mp (elements v member).2

/-- There are no arrays of void. -/
theorem elementKind?_ne_void (coherent : r.Coherent) (isArray : elementKind? r c = some kind) :
    kind ≠ .void := by
  obtain ⟨c', array, primitive⟩ := Option.bind_eq_some_iff.mp isArray
  obtain ⟨t, found, component⟩ := Option.bind_eq_some_iff.mp array
  obtain ⟨ct, there, notVoid⟩ :=
    (coherent.fits found).component c' (TypeInfo.component?_eq.mp component)
  rintro rfl
  simp [Registry.primitiveKind?, there, notVoid] at primitive

/-- An array that has the type it is converted to stays as it is. -/
theorem convert_own (array : w.registry.component? ref.cls = some c) :
    convert (.object ref) ref.cls w = .ok (.object ref) w := by
  obtain ⟨t, found, isArray⟩ := Option.bind_eq_some_iff.mp array
  rw [convert, Task.get_bind, convertAlong, Task.get_bind]
  simp only [found, TypeInfo.component?_eq.mp isArray, if_true]
  rfl

theorem convertEach_primitive {values : List Value} (components : List TypeId)
    (isPrimitive : w.registry.primitiveKind? c = some kind)
    (each : List.Forall₂ (fun v u => toPrimitive? v kind = some u) values elements) :
    convertEach (convertAlong c components) values w = .ok elements w := by
  induction each with
  | nil => rfl
  | @cons v u _ _ first _ ih =>
    have converted := convertAlong_primitive isPrimitive components v
    rw [first] at converted
    rw [convertEach, Task.bind_ok converted, Task.bind_ok ih]
    rfl

/-- An array of primitives is converted to another such type element by element. -/
theorem convert_primitives (settled : w.registry.Settled)
    (array : w.registry.component? target = some c)
    (isPrimitive : w.registry.primitiveKind? c = some kind) (other : ref.cls ≠ target)
    (isArray : w.heap.isArray ref = true)
    (each : List.Forall₂ (fun v u => toPrimitive? v kind = some u) (w.heap.elements ref) elements) :
    convert (.object ref) target w = marshalArray c elements w := by
  obtain ⟨t, found, component⟩ := Option.bind_eq_some_iff.mp array
  have nested := nested_components settled found
  rw [convert, Task.get_bind]
  generalize w.registry.components w.registry.slots.length target = components at nested ⊢
  cases nested with
  | innermost found' noArray =>
    cases found.symm.trans found'
    cases component.symm.trans noArray
  | array array' _ =>
    cases array.symm.trans array'
    rw [convertAlong, Task.get_bind]
    simp only [found, TypeInfo.component?_eq.mp component, if_neg other, isArray, if_true]
    exact Task.bind_ok (convertEach_primitive _ isPrimitive each) _

/-- A new array, where its type can be had. -/
theorem marshalArray_of_arrayOf (asked : Registry.arrayOf c w.registry = .ok a r')
    (accepted : ∀ v ∈ elements, r'.accepts c v = true) :
    marshalArray c elements w = .ok (.object ⟨w.heap.objects.length, a⟩)
      { w with registry := r', heap := (w.heap.alloc ⟨a, .elements elements, none⟩).2 } := by
  have got : Task.onRegistry (Registry.arrayOf c) w = .ok a { w with registry := r' } := by
    rw [Task.onRegistry, asked]
  have made : newArray c elements w = .ok ⟨w.heap.objects.length, a⟩
      { w with registry := r', heap := (w.heap.alloc ⟨a, .elements elements, none⟩).2 } := by
    rw [newArray, Task.bind_ok got, Task.get_bind, checkElements_of_accepts accepted 0]
    rfl
  rw [marshalArray, Task.mapError, Task.bind_ok made]
  rfl

theorem marshalArray_of_refused {e : NativeError}
    (refused : Registry.arrayOf c w.registry = .error e r') :
    marshalArray c elements w = .error (.marshal (.array e)) { w with registry := r' } := by
  have failed : Task.onRegistry (Registry.arrayOf c) w = .error e { w with registry := r' } := by
    rw [Task.onRegistry, refused]
  have unmade : newArray c elements w = .error e { w with registry := r' } :=
    Task.bind_error failed _
  rw [marshalArray, Task.mapError, Task.bind_error unmade]

/-- What an array of primitives is on its way back, before it is converted. -/
theorem roundTrip_array (sound : w.Sound) (held : w.heap.Holds ref)
    (isArray : elementKind? w.registry ref.cls = some kind) (noChar : kind ≠ .char) :
    roundTrip (.object ref) ref.cls w =
      (marshalArray (.primitive kind.delivered) ((w.heap.elements ref).map Value.delivered) >>=
        fun given => convert given ref.cls) w := by
  have noVoid := elementKind?_ne_void sound.registry.coherent isArray
  obtain ⟨items, typed, elements⟩ :=
    typedArray_delivered noChar noVoid (elements_ofKind sound held isArray)
  rw [roundTrip, Task.bind_ok (toScript_typedArray isArray typed), unwrap, elements]

/-- Elements other than bytes are delivered as they are. -/
theorem map_delivered (noByte : kind ≠ .byte)
    (ofKind : ∀ v ∈ elements, v.primitiveKind? = some kind) :
    kind.delivered = kind ∧ elements.map Value.delivered = elements := by
  constructor
  · cases kind <;> first | rfl | exact absurd rfl noByte
  · refine (List.map_congr_left fun v member => ?_).trans (List.map_id elements)
    have own := ofKind v member
    cases v with
    | byte =>
      cases own
      exact absurd rfl noByte
    | _ => rfl

/-- The copy of an array that has come back; nothing that was there has changed. -/
structure IsReturned (w w' : World) (ref copy : ObjectRef) : Prop where
  made : IsMade w.heap.objects.length ref.cls w' copy
  elements : w'.heap.elements copy = w.heap.elements ref
  others : ∀ {other o}, w.heap.get? other = some o → w'.heap.get? other = some o

/-- The component of an array of primitives is the primitive type itself. -/
theorem component_primitive (sound : w.Sound)
    (isArray : elementKind? w.registry c = some kind) :
    w.registry.component? c = some (.primitive kind) ∧
      w.registry.primitiveKind? (.primitive kind) = some kind := by
  obtain ⟨c', array, primitive⟩ := Option.bind_eq_some_iff.mp isArray
  cases sound.registry.coherent.eq_primitive primitive
  exact ⟨array, primitive⟩

/-- Elements other than bytes come back in an array of the type that they left in. -/
theorem roundTrip_of_noByte (sound : w.Sound) (held : w.heap.Holds ref)
    (isArray : elementKind? w.registry ref.cls = some kind) (noChar : kind ≠ .char)
    (noByte : kind ≠ .byte) :
    ∃ copy w', roundTrip (.object ref) ref.cls w = .ok (.object copy) w' ∧
      IsReturned w w' ref copy := by
  have ofKind := elements_ofKind sound held isArray
  obtain ⟨sameKind, sameElements⟩ := map_delivered noByte ofKind
  obtain ⟨array, primitive⟩ := component_primitive sound isArray
  have accepted : ∀ v ∈ w.heap.elements ref, w.registry.accepts (.primitive kind) v = true :=
    fun v member => (accepts_primitive_iff primitive).mpr (ofKind v member)
  have made := marshalArray_made sound array accepted
  have kept : convert (.object (w.nextRef ref.cls)) ref.cls
      (w.withArray ref.cls (w.heap.elements ref)) = .ok (.object (w.nextRef ref.cls)) _ :=
    convert_own array
  refine ⟨_, _, ?_, isMade_withArray .., elements_withArray .., (World.Allocates.withArray ..).get?⟩
  rw [roundTrip_array sound held isArray noChar, sameKind, sameElements, Task.bind_ok made, kept]

/-- Bytes come back from shorts. -/
theorem forall₂_bytes (ofKind : ∀ v ∈ elements, v.primitiveKind? = some .byte) :
    List.Forall₂ (fun v u => toPrimitive? v .byte = some u) (elements.map Value.delivered)
      elements := by
  rw [List.forall₂_map_left_iff, List.forall₂_same]
  intro v member
  have exact : v.Exact := by
    have own := ofKind v member
    cases v <;> cases own
    trivial
  exact toPrimitive?_delivered (ofKind v member) (by decide) exact

theorem primitiveKind?_delivered (ofKind : v.primitiveKind? = some kind) :
    v.delivered.primitiveKind? = some kind.delivered := by
  cases v <;> cases ofKind <;> rfl

/-- The array of shorts that an array of bytes is on its way back. -/
theorem marshalArray_shorts (sound : w.Sound)
    (free : ¬w.registry.ArrayNameTaken (.primitive .short))
    (ofKind : ∀ v ∈ elements, v.primitiveKind? = some .short) :
    ∃ shorts w', marshalArray (.primitive .short) elements w = .ok (.object shorts) w' ∧
      w'.Sound ∧ w.Grows w' ∧ IsNewArray (.primitive .short) w' shorts ∧
      w'.heap.isArray shorts = true ∧ w'.heap.elements shorts = elements ∧
      w.heap.objects.length ≤ w'.heap.objects.length ∧
      ∀ {other o}, w.heap.get? other = some o → w'.heap.get? other = some o := by
  obtain ⟨t, found, own, _, settled⟩ := sound.registry.coherent.primitive .short
  have notVoid : t.primitiveKind? ≠ some .void := by simp [TypeInfo.primitiveKind?, own]
  obtain ⟨a, r', asked⟩ := Registry.arrayOf_of_nameFree found notVoid settled free
  have extended := sound.registry.extends_arrayOf (.primitive .short)
  rw [asked] at extended
  have stays : r'.get? (.primitive .short) = some t := extended found
  have primitive : r'.primitiveKind? (.primitive .short) = some .short := by
    simp [Registry.primitiveKind?, stays, TypeInfo.primitiveKind?, own]
  have made := marshalArray_of_arrayOf (w := w) asked
    (fun v member => (accepts_primitive_iff primitive).mpr (ofKind v member))
  have known : ∀ v ∈ elements, w.heap.Knows v := by
    intro v member
    have own := ofKind v member
    cases v <;> cases own
    trivial
  obtain ⟨sound', grows, shorts, same, isNew⟩ := (safe_marshalArray sound _ known).ok made
  cases same
  refine ⟨_, _, made, sound', grows, isNew, ?_, ?_, ?_, ?_⟩
  · simp [Heap.isArray, Heap.get?, Heap.alloc]
  · simp [Heap.elements, Heap.get?, Heap.alloc]
  · simp [Heap.alloc]
  · intro other o there
    have inRange : other.address < w.heap.objects.length := (List.getElem?_eq_some_iff.mp there).1
    exact (List.getElem?_append_left inRange).trans there

theorem roundTrip_bytes (sound : w.Sound) (held : w.heap.Holds ref)
    (isArray : elementKind? w.registry ref.cls = some .byte)
    (free : ¬w.registry.ArrayNameTaken (.primitive .short)) :
    ∃ copy w', roundTrip (.object ref) ref.cls w = .ok (.object copy) w' ∧
      IsReturned w w' ref copy := by
  have ofKind := elements_ofKind sound held isArray
  have delivered : ∀ v ∈ (w.heap.elements ref).map Value.delivered,
      v.primitiveKind? = some .short := by
    intro v member
    obtain ⟨u, listed, rfl⟩ := List.mem_map.mp member
    exact primitiveKind?_delivered (ofKind u listed)
  obtain ⟨shorts, w₁, given, sound₁, grows, ⟨_, entry⟩, ofShorts, elements, longer, others⟩ :=
    marshalArray_shorts sound free delivered
  obtain ⟨array, primitive⟩ := component_primitive sound₁ (elementKind?_mono grows isArray)
  have other : shorts.cls ≠ ref.cls := by
    intro same
    obtain ⟨t, found, kind⟩ := sound₁.registry.coherent.arrays.mp entry
    rw [same] at found
    rw [Registry.component?, found, Option.bind_some, TypeInfo.component?_eq.mpr kind] at array
    exact absurd array (by decide)
  have each := forall₂_bytes ofKind
  rw [← elements] at each
  have narrowed := convert_primitives sound₁.registry array primitive other ofShorts each
  have accepted : ∀ v ∈ w.heap.elements ref, w₁.registry.accepts (.primitive .byte) v = true :=
    fun v member => (accepts_primitive_iff primitive).mpr (ofKind v member)
  have made := marshalArray_made sound₁ array accepted
  have isMade := (isMade_withArray w₁ ref.cls (w.heap.elements ref)).mono (.refl _) longer
  have adds := World.Allocates.withArray w₁ ref.cls (w.heap.elements ref)
  refine ⟨_, _, ?_, isMade, elements_withArray .., fun there => adds.get? (others there)⟩
  rw [roundTrip_array sound held isArray (by decide)]
  exact (Task.bind_ok given _).trans (narrowed.trans made)

/-- Where the type of the shorts cannot be had, the bytes stay behind. -/
theorem roundTrip_bytes_refused (sound : w.Sound) (held : w.heap.Holds ref)
    (isArray : elementKind? w.registry ref.cls = some .byte)
    (taken : w.registry.ArrayNameTaken (.primitive .short)) :
    roundTrip (.object ref) ref.cls w =
      .error (.marshal (.array (.duplicateType "short[]")))
        { w with registry := w.registry.reserve.2 } := by
  obtain ⟨t, found, ofKind, name, settled⟩ := sound.registry.coherent.primitive .short
  have notVoid : t.primitiveKind? ≠ some .void := by simp [TypeInfo.primitiveKind?, ofKind]
  have refused := Registry.arrayOf_of_nameTaken found notVoid settled taken
  rw [Registry.typeName_eq found, name] at refused
  rw [roundTrip_array sound held isArray (by decide)]
  exact Task.bind_error (marshalArray_of_refused refused) _

end Marshal

open Marshal (IsReturned)
open Registry (bareDraft)

/-- Values of primitive kinds other than characters, on their way to script and back. -/
structure World.ReturnsPrimitives (w : World) : Prop where
  single : ∀ {v kind target}, v.primitiveKind? = some kind → kind ≠ .char →
    w.registry.primitiveKind? target = some kind → v.Exact → roundTrip v target w = .ok v w
  /-- Script code gets every element of an array, bytes as shorts. -/
  delivered : ∀ {ref kind}, w.heap.Holds ref → elementKind? w.registry ref.cls = some kind →
    kind ≠ .char → ∃ items,
      (toScript (.object ref) : Task BridgeError _) w = .ok (.typedArray items) w ∧
        typedElements items = (kind.delivered, (w.heap.elements ref).map Value.delivered)
  /-- An array comes back as a new array of its class with the same elements, unless it is one of
  bytes and arrays of shorts cannot be made. -/
  array : ∀ {ref kind}, w.heap.Holds ref → elementKind? w.registry ref.cls = some kind →
    kind ≠ .char → (kind = .byte → ¬w.registry.ArrayNameTaken (.primitive .short)) →
    ∃ copy w', roundTrip (.object ref) ref.cls w = .ok (.object copy) w' ∧
      IsReturned w w' ref copy
  refused : ∀ {ref}, w.heap.Holds ref → elementKind? w.registry ref.cls = some .byte →
    w.registry.ArrayNameTaken (.primitive .short) → ∃ w',
      roundTrip (.object ref) ref.cls w =
        .error (.marshal (.array (.duplicateType "short[]"))) w'

/-- At every moment primitive values other than characters return from script unchanged, and so do
their arrays, those of bytes as long as arrays of shorts can be made. -/
theorem primitives_returned (moment : Moment w) : w.ReturnsPrimitives := by
  have sound := moment.sound
  constructor
  case single => exact Marshal.roundTrip_primitive
  case delivered =>
    intro ref kind held isArray noChar
    have noVoid := Marshal.elementKind?_ne_void sound.registry.coherent isArray
    obtain ⟨items, typed, elements⟩ := Marshal.typedArray_delivered noChar noVoid
      (Marshal.elements_ofKind sound held isArray)
    exact ⟨items, Marshal.toScript_typedArray isArray typed, elements⟩
  case array =>
    intro ref kind held isArray noChar free
    by_cases isByte : kind = .byte
    · subst isByte
      exact Marshal.roundTrip_bytes sound held isArray (free rfl)
    · exact Marshal.roundTrip_of_noByte sound held isArray noChar isByte
  case refused =>
    intro ref held isArray taken
    exact ⟨_, Marshal.roundTrip_bytes_refused sound held isArray taken⟩

/-- The lowest byte, a negative one and the highest. -/
def someBytes : List Value := [.byte (-128), .byte (-2), .byte 127]

/-- A world with an array of bytes, after the host has defined types. -/
def bytesWorld (drafts : List TypeDraft) : World :=
  (Action.newArray (.primitive .byte) someBytes).apply
    (drafts.foldl (fun w draft => (Action.define draft).apply w) (.initial .default .always))

theorem reachable_bytesWorld {drafts : List TypeDraft}
    (plain : ∀ draft ∈ drafts, draft.values = []) : Reachable (bytesWorld drafts) := by
  have defined : ∀ {w : World}, Reachable w →
      Reachable (drafts.foldl (fun w draft => (Action.define draft).apply w) w) := by
    induction drafts with
    | nil => exact fun before => before
    | cons draft rest ih =>
      obtain ⟨first, others⟩ := List.forall_mem_cons.mp plain
      refine fun before => ih others (.step before (.define draft) fun v member => ?_)
      rw [first] at member
      cases member
  refine .step (defined (.initial .default .always)) (.newArray _ _) fun v member => ?_
  simp only [someBytes, List.mem_cons, List.not_mem_nil, or_false] at member
  rcases member with rfl | rfl | rfl <;> trivial

/-- The bytes come back from shorts. -/
theorem primitives_bytesWorld :
    Moment (bytesWorld []) ∧ (bytesWorld []).ReturnsPrimitives ∧
      roundTrip (.byte (-128)) (.primitive .byte) (bytesWorld []) =
        .ok (.byte (-128)) (bytesWorld []) ∧
      ∃ copy w', roundTrip (.object ⟨0, ⟨20⟩⟩) ⟨20⟩ (bytesWorld []) = .ok (.object copy) w' ∧
        copy.cls = ⟨20⟩ ∧ w'.heap.elements copy = someBytes := by
  have moment := moment_of_reachable (reachable_bytesWorld (List.forall_mem_nil _))
  have returns := primitives_returned moment
  refine ⟨moment, returns, returns.single rfl (by decide) (by decide +kernel) trivial, ?_⟩
  have held : (bytesWorld []).heap.Holds ⟨0, ⟨20⟩⟩ := ⟨_, rfl, rfl⟩
  have ofBytes : elementKind? (bytesWorld []).registry ⟨20⟩ = some .byte := by decide +kernel
  obtain ⟨copy, w', returned, isReturned⟩ :=
    returns.array held ofBytes (by decide) (by decide +kernel)
  exact ⟨copy, w', returned, isReturned.made.cls, isReturned.elements⟩

/-- Where a class has the name of the arrays of shorts, the bytes do not come back. -/
theorem bytes_left_behind :
    Reachable (bytesWorld [bareDraft "short[]"]) ∧
      (bytesWorld [bareDraft "short[]"]).heap.elements ⟨0, ⟨21⟩⟩ = someBytes ∧
      elementKind? (bytesWorld [bareDraft "short[]"]).registry ⟨21⟩ = some .byte ∧
      ∃ w', roundTrip (.object ⟨0, ⟨21⟩⟩) ⟨21⟩ (bytesWorld [bareDraft "short[]"]) =
        .error (.marshal (.array (.duplicateType "short[]"))) w' := by
  have reachable : Reachable (bytesWorld [bareDraft "short[]"]) := reachable_bytesWorld (by decide)
  have held : (bytesWorld [bareDraft "short[]"]).heap.Holds ⟨0, ⟨21⟩⟩ := ⟨_, rfl, rfl⟩
  have ofBytes : elementKind? (bytesWorld [bareDraft "short[]"]).registry ⟨21⟩ = some .byte := by
    decide +kernel
  exact ⟨reachable, rfl, ofBytes, _,
    Marshal.roundTrip_bytes_refused reachable.sound held ofBytes (by decide +kernel)⟩

end Interop
