import Mathlib.Data.List.Forall2
import Interop.Proofs.World.Tasks

/-!
Marshalling keeps the world sound, and what it gives is usable as it is: an unwrapped value refers
to an object that is there, and a converted value is accepted by the type it was converted to.
Converted arguments pass the check that invocation makes of them, the array of a variadic member
included.
-/
namespace Interop.Marshal

open Interop.Task (Meets Safe)

variable {w w' : World} {r : Registry} {v : Value} {c target : TypeId} {elements : List Value}

theorem checkElements_ok {index : Nat} (checked : r.checkElements c index elements = .ok ()) :
    ∀ v ∈ elements, r.accepts c v = true := by
  induction elements generalizing index with
  | nil => simp
  | cons first rest ih =>
    unfold Registry.checkElements at checked
    split at checked
    · next accepted => exact List.forall_mem_cons.mpr ⟨accepted, ih checked⟩
    · cases checked

/-- A reference to a new array of a component. -/
def IsNewArray (c : TypeId) (w : World) (ref : ObjectRef) : Prop :=
  w.heap.Holds ref ∧ w.registry.arrays.lookup c = some ref.cls

theorem safe_newArray (sound : w.Sound) (c : TypeId) (known : ∀ v ∈ elements, w.heap.Knows v) :
    Safe (newArray c elements) (IsNewArray c) w := by
  refine (Task.safe_arrayOf sound c).bind ?_
  intro array w₁ sound₁ grows₁ entry
  refine .get (.ofExcept sound₁ ?_)
  intro _ checked
  obtain ⟨t, found, kind⟩ := sound₁.registry.coherent.arrays.mp entry
  have component : w₁.registry.component? array = some c := by
    rw [Registry.component?, found]
    exact TypeInfo.component?_eq.mpr kind
  have typed : Object.Typed w₁.registry w₁.heap ⟨array, .elements elements, none⟩ :=
    ⟨c, component,
      fun v member => ⟨grows₁.knows (known v member), checkElements_ok checked v member⟩⟩
  refine .set (sound₁.alloc typed) ?_
  intro sound₂ grows₂
  exact .pure sound₂ ⟨Heap.holds_alloc _ _, entry⟩

theorem safe_marshalArray (sound : w.Sound) (c : TypeId) (known : ∀ v ∈ elements, w.heap.Knows v) :
    Safe (marshalArray c elements)
      (fun w' v => ∃ ref, v = .object ref ∧ IsNewArray c w' ref) w := by
  refine Meets.mapError ?_ _
  refine (safe_newArray sound c known).bind ?_
  intro ref w₁ sound₁ _ made
  exact .pure sound₁ ⟨ref, rfl, made⟩

/-- Values that script code can pass: references that lead to objects, and never void. -/
def Passable (w : World) (v : Value) : Prop := w.heap.Knows v ∧ v ≠ .void

theorem Passable.grow (passable : Passable w v) (grows : w.Grows w') : Passable w' v :=
  ⟨grows.knows passable.1, passable.2⟩

theorem passable_typedElements (w : World) (items : TypedArray) :
    ∀ v ∈ (typedElements items).2, Passable w v := by
  cases items <;>
  · simp only [typedElements, List.mem_map]
    rintro v ⟨x, _, rfl⟩
    exact ⟨trivial, nofun⟩

theorem passable_marshalArray (sound : w.Sound) (c : TypeId)
    (known : ∀ v ∈ elements, w.heap.Knows v) :
    Safe (marshalArray c elements) Passable w := by
  refine (safe_marshalArray sound c known).mono ?_
  rintro w' v _ _ ⟨ref, rfl, held, _⟩
  exact ⟨held, nofun⟩

mutual

theorem safe_unwrap : ∀ (value : ScriptValue) {w : World}, w.Sound → Safe (unwrap value) Passable w
  | .null, _, sound => .pure sound ⟨trivial, nofun⟩
  | .boolean _, _, sound => .pure sound ⟨trivial, nofun⟩
  | .short _, _, sound => .pure sound ⟨trivial, nofun⟩
  | .int _, _, sound => .pure sound ⟨trivial, nofun⟩
  | .long _, _, sound => .pure sound ⟨trivial, nofun⟩
  | .float _, _, sound => .pure sound ⟨trivial, nofun⟩
  | .double _, _, sound => .pure sound ⟨trivial, nofun⟩
  | .string _, _, sound => .pure sound ⟨trivial, nofun⟩
  | .instance id, _, sound => by
    unfold unwrap
    refine .get ?_
    split
    · next handle found =>
      exact .pure sound ⟨(sound.handles handle (List.mem_of_getElem? found)).1, nofun⟩
    · exact .pure sound ⟨trivial, nofun⟩
  | .array items, _, sound => by
    unfold unwrap
    refine (safe_unwrapAll items sound).bind ?_
    intro elements w₁ sound₁ _ passable
    exact passable_marshalArray sound₁ .object (fun v member => (passable v member).1)
  | .typedArray items, w, sound => by
    unfold unwrap
    exact passable_marshalArray sound _
      (fun v member => (passable_typedElements w items v member).1)
  | .cls _, _, sound => .get (.throw sound _)
  | .dict _, _, sound => .throw sound _
  | .function _, _, sound => .throw sound _

theorem safe_unwrapAll : ∀ (values : List ScriptValue) {w : World}, w.Sound →
    Safe (unwrapAll values) (fun w' vs => ∀ v ∈ vs, Passable w' v) w
  | [], _, sound => .pure sound nofun
  | value :: rest, _, sound => by
    unfold unwrapAll
    refine (safe_unwrap value sound).bind ?_
    intro first w₁ sound₁ _ passable
    refine (safe_unwrapAll rest sound₁).bind ?_
    intro others w₂ sound₂ grows₂ all
    exact .pure sound₂ (List.forall_mem_cons.mpr ⟨passable.grow grows₂, all⟩)

end

/-- A value that a slot of the type takes as it is. -/
def Fitting (target : TypeId) (w : World) (v : Value) : Prop :=
  w.heap.Knows v ∧ w.registry.accepts target v = true

theorem Fitting.grow (fitting : Fitting target w v) (sound : w.Sound) (sound' : w'.Sound)
    (grows : w.Grows w') :
    Fitting target w' v :=
  ⟨grows.knows fitting.1,
    Registry.accepts_mono sound.registry sound'.registry grows.registry fitting.2⟩

theorem primitiveKind?_toKind? {n : Numeric} {kind : PrimitiveKind}
    (converted : n.toKind? kind = some v) :
    v.primitiveKind? = some kind := by
  cases n <;> cases kind <;> cases converted <;> rfl

theorem primitiveKind?_charOf? {u : Value} (converted : charOf? u = some v) :
    v.primitiveKind? = some .char := by
  unfold charOf? at converted
  split at converted
  · cases converted
    rfl
  · split at converted
    · cases converted
      rfl
    · cases converted
  · split at converted
    · split at converted
      · cases converted
        rfl
      · cases converted
    · cases converted

theorem primitiveKind?_toPrimitive? {u : Value} {kind : PrimitiveKind}
    (converted : toPrimitive? u kind = some v) :
    v.primitiveKind? = some kind := by
  unfold toPrimitive? at converted
  split at converted
  · obtain ⟨flag, _, rfl⟩ := Option.map_eq_some_iff.mp converted
    rfl
  · exact primitiveKind?_charOf? converted
  · cases converted
  · obtain ⟨n, _, ofKind⟩ := Option.bind_eq_some_iff.mp converted
    exact primitiveKind?_toKind? ofKind

/-- Every component has one array type, so a new array of it is of the type that was asked for. -/
theorem fitting_newArray {t : TypeInfo} {ref : ObjectRef} (sound : w.Sound)
    (found : w.registry.get? target = some t)
    (kind : t.kind = .array c) (made : IsNewArray c w ref) : Fitting target w (.object ref) := by
  obtain ⟨held, entry⟩ := made
  rw [sound.registry.coherent.arrays.mpr ⟨t, found, kind⟩] at entry
  cases Option.some.inj entry
  refine ⟨held, (Registry.accepts_iff sound.registry).mpr ⟨t, found, ?_⟩⟩
  simp only [Registry.Takes, TypeInfo.primitiveKind?, kind, sound.registry.coherent.ids found]
  exact Or.inr ⟨ref.cls, rfl, .refl _⟩

theorem fitting_marshalArray {t : TypeInfo} (sound : w.Sound)
    (found : w.registry.get? target = some t)
    (kind : t.kind = .array c) (known : ∀ v ∈ elements, w.heap.Knows v) :
    Safe (marshalArray c elements) (Fitting target) w := by
  refine (safe_marshalArray sound c known).mono ?_
  rintro w' v sound' grows ⟨ref, rfl, made⟩
  exact fitting_newArray sound' (grows.registry found) kind made

theorem safe_convertEach {convertOne : Value → Task BridgeError Value} {values : List Value}
    (one : ∀ {v w}, w.Sound → w.heap.Knows v → Safe (convertOne v) (Fitting c) w)
    (sound : w.Sound) (known : ∀ v ∈ values, w.heap.Knows v) :
    Safe (convertEach convertOne values) (fun w' us => ∀ u ∈ us, Fitting c w' u) w := by
  induction values generalizing w with
  | nil => exact .pure sound nofun
  | cons first rest ih =>
    obtain ⟨knownFirst, knownRest⟩ := List.forall_mem_cons.mp known
    refine (one sound knownFirst).bind ?_
    intro u w₁ sound₁ grows₁ fitting
    refine (ih sound₁ (fun v member => grows₁.knows (knownRest v member))).bind ?_
    intro us w₂ sound₂ grows₂ all
    exact .pure sound₂ (List.forall_mem_cons.mpr ⟨fitting.grow sound₁ sound₂ grows₂, all⟩)

/-- One level of a conversion, whatever the levels below do. -/
theorem safe_convertAlong_step {components : List TypeId}
    (deeper : ∀ {next rest}, components = next :: rest → ∀ {v w}, w.Sound → w.heap.Knows v →
      Safe (convertAlong next rest v) (Fitting next) w)
    (sound : w.Sound) (known : w.heap.Knows v) :
    Safe (convertAlong target components v) (Fitting target) w := by
  unfold convertAlong
  refine .get ?_
  split
  · exact .throw sound _
  · next t found =>
    split
    · next kind isPrimitive =>
      split
      · next u converted =>
        have ofKind := primitiveKind?_toPrimitive? converted
        refine .pure sound ⟨?_, (Registry.accepts_iff sound.registry).mpr ⟨t, found, ?_⟩⟩
        · cases u with
          | object ref => cases ofKind
          | _ => trivial
        · simpa only [Registry.Takes, TypeInfo.primitiveKind?, isPrimitive] using ofKind
      · exact .throw sound _
    · split
      · next accepted => exact .pure sound ⟨known, accepted⟩
      · exact .throw sound _
    · split
      · next accepted => exact .pure sound ⟨known, accepted⟩
      · exact .throw sound _
    · next c array =>
      have takes : ∀ {u}, u = .null ∨
          (∃ a, Registry.runtimeType? u = some a ∧ Registry.Below w.registry a t.id) →
          w.registry.accepts target u = true := by
        intro u reason
        refine (Registry.accepts_iff sound.registry).mpr ⟨t, found, ?_⟩
        simpa only [Registry.Takes, TypeInfo.primitiveKind?, array] using reason
      split
      · exact .pure sound ⟨trivial, takes (Or.inl rfl)⟩
      · next ref =>
        split
        · next same =>
          refine .pure sound ⟨known, takes (Or.inr ⟨ref.cls, rfl, ?_⟩)⟩
          rw [same, sound.registry.coherent.ids found]
          exact .refl target
        · split
          · split
            · exact .throw sound _
            · next next rest =>
              refine (safe_convertEach (deeper rfl) sound
                (fun v member => sound.elements member)).bind ?_
              intro elements w₁ sound₁ grows₁ all
              exact fitting_marshalArray sound₁ (grows₁.registry found) array
                (fun u member => (all u member).1)
          · exact .throw sound _
      · split
        · refine fitting_marshalArray sound found array ?_
          simp only [List.mem_map]
          rintro v ⟨unit, _, rfl⟩
          trivial
        · exact .throw sound _
      · exact .throw sound _

theorem safe_convertAlong {components : List TypeId} (sound : w.Sound) (known : w.heap.Knows v) :
    Safe (convertAlong target components v) (Fitting target) w := by
  induction components generalizing target v w with
  | nil => exact safe_convertAlong_step nofun sound known
  | cons next deeper ih =>
    refine safe_convertAlong_step ?_ sound known
    rintro _ _ ⟨⟩ v w sound known
    exact ih sound known

theorem safe_convert (sound : w.Sound) (known : w.heap.Knows v) (target : TypeId) :
    Safe (convert v target) (Fitting target) w :=
  .get (safe_convertAlong sound known)

theorem safe_convertPairs {pairs : List (Value × TypeId)} (sound : w.Sound)
    (known : ∀ pair ∈ pairs, w.heap.Knows pair.1) :
    Safe (convertPairs pairs)
    (fun w' vs => List.Forall₂ (fun pair v => Fitting pair.2 w' v) pairs vs) w := by
  induction pairs generalizing w with
  | nil => exact .pure sound .nil
  | cons pair rest ih =>
    obtain ⟨arg, param⟩ := pair
    obtain ⟨knownFirst, knownRest⟩ := List.forall_mem_cons.mp known
    refine (safe_convert sound knownFirst param).bind ?_
    intro first w₁ sound₁ grows₁ fitting
    refine (ih sound₁ (fun pair member => grows₁.knows (knownRest pair member))).bind ?_
    intro others w₂ sound₂ grows₂ all
    exact .pure sound₂ (.cons (fitting.grow sound₁ sound₂ grows₂) all)

theorem forall_of_forall₂ {α β : Type} {P : β → Prop} {as : List α} {bs : List β}
    (all : List.Forall₂ (fun _ b => P b) as bs) : ∀ b ∈ bs, P b := by
  induction all with
  | nil => exact nofun
  | cons first _ ih => exact List.forall_mem_cons.mpr ⟨first, ih⟩

/-- Values that were all converted to one type fit that type. -/
theorem fitting_of_pairs {args values : List Value}
    (fitting : List.Forall₂ (fun pair v => Fitting pair.2 w v)
      (args.map (fun arg => (arg, c))) values) :
    ∀ v ∈ values, Fitting c w v := by
  rw [List.forall₂_map_left_iff] at fitting
  exact forall_of_forall₂ fitting

/-- One fitting argument for every parameter. -/
def FittingAll (params : List TypeId) (w : World) (args : List Value) : Prop :=
  List.Forall₂ (fun param arg => Fitting param w arg) params args

theorem FittingAll.grow {params : List TypeId} {args : List Value}
    (fitting : FittingAll params w args)
    (sound : w.Sound) (sound' : w'.Sound) (grows : w.Grows w') : FittingAll params w' args :=
  List.Forall₂.imp (fun _ _ one => one.grow sound sound' grows) fitting

/-- Pairs of arguments with as many parameters give an argument for each. -/
theorem fittingAll_of_zip {args values : List Value} {params : List TypeId}
    (enough : params.length ≤ args.length)
    (fitting : List.Forall₂ (fun pair v => Fitting pair.2 w v) (args.zip params) values) :
    FittingAll params w values := by
  have seconds : (args.zip params).map Prod.snd = params := List.map_snd_zip enough
  rw [FittingAll, ← seconds, List.forall₂_map_left_iff]
  exact fitting

theorem FittingAll.accepted {params : List TypeId} {args : List Value}
    (fitting : FittingAll params w args) :
    List.Forall₂ (fun param arg => w.registry.accepts param arg = true) params args :=
  List.Forall₂.imp (fun _ _ one => one.2) fitting

theorem FittingAll.knows {params : List TypeId} {args : List Value}
    (fitting : FittingAll params w args) :
    ∀ v ∈ args, w.heap.Knows v :=
  forall_of_forall₂ (List.Forall₂.imp (fun _ _ one => one.1) fitting)

theorem checkEach_ok {params : List TypeId} {args : List Value} (member : String) (index : Nat)
    (accepted : List.Forall₂ (fun param arg => r.accepts param arg = true) params args) :
    r.checkEach member index params args = .ok () := by
  induction accepted generalizing index with
  | nil => rfl
  | cons first _ ih =>
    unfold Registry.checkEach
    rw [if_pos first]
    exact ih (index + 1)

/-- Accepted arguments pass the check of an invocation. -/
theorem checkArguments_ok {params : List TypeId} {args : List Value} (member : String)
    (accepted : List.Forall₂ (fun param arg => r.accepts param arg = true) params args) :
    r.checkArguments params args member = .ok () := by
  unfold Registry.checkArguments
  rw [if_pos accepted.length_eq]
  exact checkEach_ok member 0 accepted

theorem safe_convertArguments {args : List Value} (sound : w.Sound)
    (known : ∀ v ∈ args, w.heap.Knows v) (params : List TypeId) (variadic : Bool) :
    Safe (convertArguments args params variadic) (FittingAll params) w := by
  have pairs : ∀ types : List TypeId, ∀ pair ∈ args.zip types, w.heap.Knows pair.1 :=
    fun types pair member => known pair.1 (List.of_mem_zip member).1
  unfold convertArguments
  split
  · split
    · exact .throw sound _
    · next count =>
      refine (safe_convertPairs sound (pairs params)).mono ?_
      intro w' values _ _ fitting
      exact fittingAll_of_zip (by omega) fitting
  · split
    · exact .throw sound _
    · next last lastParam =>
      dsimp only
      split
      · exact .throw sound _
      · next count =>
        refine .get ?_
        split
        · exact .throw sound _
        · next c component =>
          refine (safe_convertPairs sound (pairs params.dropLast)).bind ?_
          intro front w₁ sound₁ grows₁ fitting₁
          have rest : ∀ pair ∈ (args.drop params.dropLast.length).map (fun arg => (arg, c)),
              w₁.heap.Knows pair.1 := by
            simp only [List.mem_map]
            rintro _ ⟨arg, member, rfl⟩
            exact grows₁.knows (known arg (List.mem_of_mem_drop member))
          refine (safe_convertPairs sound₁ rest).bind ?_
          intro values w₂ sound₂ grows₂ fitting₂
          obtain ⟨t, found, array⟩ := Option.bind_eq_some_iff.mp component
          have packing : Safe (marshalArray c values) (Fitting last) w₂ :=
            fitting_marshalArray sound₂ (grows₂.registry (grows₁.registry found))
              (TypeInfo.component?_eq.mp array)
              (fun v member => (fitting_of_pairs fitting₂ v member).1)
          refine packing.bind ?_
          intro packed w₃ sound₃ grows₃ fitting₃
          have fixed := (fittingAll_of_zip (by omega) fitting₁).grow sound₁ sound₃
              (grows₂.trans grows₃)
          have whole : params.dropLast ++ [last] = params :=
            List.dropLast_append_getLast? last lastParam
          refine .pure sound₃ ?_
          rw [← whole]
          exact List.rel_append fixed (.cons fitting₃ .nil)

theorem safe_toScript {ε : Type} (sound : w.Sound) (known : w.heap.Knows v) :
    Safe (toScript v : Task ε ScriptValue) (fun _ _ => True) w := by
  cases v with
  | object ref =>
    unfold toScript
    refine .get ?_
    split
    · exact .pure sound trivial
    · refine (Task.safe_wrapObject sound known).bind ?_
      intro id w₁ sound₁ _ _
      exact .pure sound₁ trivial
  | _ => exact .pure sound trivial

theorem safe_toScriptAll {ε : Type} {values : List Value} (sound : w.Sound)
    (known : ∀ v ∈ values, w.heap.Knows v) :
    Safe (toScriptAll values : Task ε (List ScriptValue)) (fun _ _ => True) w := by
  induction values generalizing w with
  | nil => exact .pure sound trivial
  | cons first rest ih =>
    obtain ⟨knownFirst, knownRest⟩ := List.forall_mem_cons.mp known
    refine (safe_toScript sound knownFirst).bind ?_
    intro _ w₁ sound₁ grows₁ _
    refine (ih sound₁ (fun v member => grows₁.knows (knownRest v member))).bind ?_
    intro _ w₂ sound₂ _ _
    exact .pure sound₂ trivial

end Interop.Marshal
