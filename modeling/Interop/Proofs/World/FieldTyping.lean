import Interop.Proofs.World.SealedCode

/-!
Field typing. In a run in which fields are written through handles only, reading a field gives a
value of one of the fields that share its slot: the instance fields of its name that the object's
class and the types above it declare. So the value is of the field's own type wherever the types of
those fields are assignable to it, and in particular where the name is declared once. Without that
it need not be, since views of one object may show different declarations of one slot.
-/
namespace Interop

variable {w : World}

/-- The task goes the same way if native code is sealed: native code writes no field in it. -/
def Eval.WriteFree {ε α : Type} (depth : Nat) (task : Runner → Task ε α) (w : World) : Prop :=
  task (engine depth) w = task (sealedEngine depth) w

theorem Eval.continues_of_writeFree {ε α : Type} {depth : Nat} (task : Runner → Task ε α)
    (free : WriteFree depth task w) (typed : w.SlotsTyped)
    (carries : ∀ {run : Runner}, run.Stays World.Carries → (task run).Stays World.Carries w) :
    w.Continues (stateAfter (task (engine depth) w)) := by
  rw [free]
  exact carries (carries_sealedEngine depth) typed

open Eval (WriteFree continues_of_writeFree maxDepth)

/-- What the action writes to fields, it writes through a handle. -/
def Action.WritesByHandle (w : World) : Action → Prop
  | construct c args handler =>
    WriteFree maxDepth (fun run => Invoke.construct run c args handler) w
  | invoke m receiver args => WriteFree maxDepth (fun run => Invoke.invoke run m receiver args) w
  | newInstance handle args => WriteFree maxDepth (fun run => handle.newInstance run args) w
  | newInstanceWithOverrides handle overrides args =>
    WriteFree maxDepth (fun run => handle.newInstanceWithOverrides run overrides args) w
  | call proxy site => WriteFree maxDepth (fun run => proxy.call run site) w
  | _ => True

/-- The same of a move. Parts of code are run by the engine, and a host that writes a field past all
handles is left out. -/
def Move.WritesByHandle (w : World) : Move → Prop
  | act action => action.WritesByHandle w
  | native run frame code => ∃ depth, run = Eval.engine depth ∧
    Eval.code (Eval.engine depth) frame code w =
      Eval.code (Eval.sealedEngine depth) frame code.sealed w
  | script run frame code => ∃ depth, run = Eval.engine depth ∧
    WriteFree depth (fun run => Eval.script run frame code) w
  | invokeForced m receiver args =>
    WriteFree maxDepth (fun run => Invoke.invokeForced run m receiver args) w
  | invokeDirect m receiver args =>
    WriteFree maxDepth (fun run => Invoke.invokeDirect run m receiver args) w
  | invokeSuper m receiver args =>
    WriteFree maxDepth (fun run => Invoke.invokeSuper run m receiver args) w
  | setField _ _ _ => False
  | _ => True

/-- The world is reached by moves that write fields through handles only. -/
inductive HandleWritten : World → Prop where
  | initial (config : Config) (gate : Gate) : HandleWritten (.initial config gate)
  | step {w : World} (before : HandleWritten w) (move : Move) (allowed : move.Allowed w)
      (byHandle : move.WritesByHandle w) : HandleWritten (move.apply w)

theorem HandleWritten.moment (written : HandleWritten w) : Moment w := by
  induction written with
  | initial config gate => exact ⟨config, gate, .now⟩
  | step _ move allowed _ ih => exact ih.later (.step .now move allowed)

theorem Action.continues_apply {action : Action} (typed : w.SlotsTyped)
    (byHandle : action.WritesByHandle w) : w.Continues (action.apply w) := by
  have steady := World.Carries.steady
  cases action with
  | construct c args handler =>
    refine continues_of_writeFree (fun run => Invoke.construct run c args handler) byHandle typed ?_
    exact fun runs => Invoke.stays_construct runs steady.emit c args
      fun cls => World.Carries.newObject w cls handler
  | invoke m receiver args =>
    exact continues_of_writeFree (fun run => Invoke.invoke run m receiver args) byHandle typed
      fun runs => steady.stays_dispatch runs true m receiver args
  | newInstance handle args =>
    exact continues_of_writeFree (fun run => handle.newInstance run args) byHandle typed
      fun runs => steady.stays_newInstance runs handle args
  | newInstanceWithOverrides handle overrides args =>
    exact continues_of_writeFree (fun run => handle.newInstanceWithOverrides run overrides args)
      byHandle typed fun runs => steady.stays_newInstanceWithOverrides runs handle overrides args
  | call proxy site =>
    exact continues_of_writeFree (fun run => proxy.call run site) byHandle typed
      fun runs => steady.stays_call runs proxy site
  | _ => exact World.Carries.pieces.of_plainAction trivial typed

theorem Move.continues_apply {move : Move} (typed : w.SlotsTyped)
    (byHandle : move.WritesByHandle w) : w.Continues (move.apply w) := by
  have steady := World.Carries.steady
  cases move with
  | act action => exact Action.continues_apply typed byHandle
  | native run frame code =>
    obtain ⟨depth, rfl, same⟩ := byHandle
    simp only [apply, same]
    exact Eval.carries_sealed (Eval.carries_sealedEngine depth) frame code typed
  | script run frame code =>
    obtain ⟨depth, rfl, free⟩ := byHandle
    exact continues_of_writeFree _ free typed fun runs => steady.stays_script runs frame code
  | takeSuperCall proxy receiver =>
    exact World.Carries.takeSuperCall (ε := BridgeError) receiver proxy typed
  | addDispatcher overrides => exact typed.unaffected rfl rfl rfl
  | allocate c args handler =>
    exact Invoke.stays_construct (Eval.carries_sealedEngine 0) steady.emit c args
      (fun cls => World.Carries.newObject w cls handler) typed
  | invokeForced m receiver args =>
    exact continues_of_writeFree (fun run => Invoke.invokeForced run m receiver args) byHandle typed
      fun runs => steady.stays_dispatch runs false m receiver args
  | invokeDirect m receiver args =>
    exact continues_of_writeFree (fun run => Invoke.invokeDirect run m receiver args) byHandle typed
      fun runs => Steady.stays_invokeDirect runs m receiver args
  | invokeSuper m receiver args =>
    exact continues_of_writeFree (fun run => Invoke.invokeSuper run m receiver args) byHandle typed
      fun runs => steady.stays_invokeSuper runs m receiver args
  | setField f receiver value => cases byHandle
  | _ => exact World.Carries.pieces.of_plain trivial nofun typed

theorem slotsTyped_initial (config : Config) (gate : Gate) :
    (World.initial config gate).SlotsTyped :=
  ⟨Registry.settled_initial, Registry.defaultsTyped_initial, nofun, nofun⟩

theorem HandleWritten.slotsTyped (written : HandleWritten w) : w.SlotsTyped := by
  induction written with
  | initial config gate => exact slotsTyped_initial config gate
  | step _ move _ byHandle ih => exact (Move.continues_apply ih byHandle).typed

/-- In a sound world whatever refers to an object names the object's class. -/
theorem World.Sound.holds_of_refers {ref : ObjectRef} (sound : w.Sound) (refers : w.Refers ref) :
    w.heap.Holds ref := by
  rcases refers with held | ⟨id, h, live, rfl⟩
  · exact held
  · exact (sound.handles h (List.mem_of_getElem? live)).1

/-- A slot holds a value of a field that shares it. -/
theorem World.SlotsTyped.declares_read {ref : ObjectRef} {name : String} {v : Value}
    (typed : w.SlotsTyped) (sound : w.Sound) (held : w.heap.Holds ref)
    (read : w.heap.field? ref name = some v) : w.registry.Declares ref.cls name v := by
  obtain ⟨o, found, cls⟩ := held
  unfold Heap.field? at read
  rw [found] at read
  cases contents : o.contents with
  | elements elements => simp [contents] at read
  | fields fields =>
    simp only [Option.map_some, contents] at read
    obtain ⟨owner, address, refers, declares⟩ :=
      typed.slots found contents (name, v) (mem_of_lookup read)
    obtain ⟨p, found', cls'⟩ := sound.holds_of_refers refers
    rw [Heap.get?, address] at found'
    cases found.symm.trans found'
    rwa [← cls', cls] at declares

/-- Every instance field that shares the slot of `f` in an object of the class is of a type that is
assignable to the type of `f`. -/
def Registry.SlotAgrees (r : Registry) (cls : TypeId) (f : Field) : Prop :=
  ∀ t ∈ r.searchOrder cls, ∀ g ∈ t.fields, g.name = f.name → g.isStatic = false →
    r.isAssignable g.type f.type = true

theorem Registry.Declares.accepts {r : Registry} {cls : TypeId} {f : Field} {v : Value}
    (declares : r.Declares cls f.name v) (settled : r.Settled) (agrees : r.SlotAgrees cls f)
    (notVoid : r.primitiveKind? f.type ≠ some .void) : r.accepts f.type v = true := by
  obtain ⟨t, listed, g, declared, named, onInstance, admits⟩ := declares
  have below := (isAssignable_iff settled).mp (agrees t listed g declared named onInstance)
  rcases admits with accepted | void
  · exact accepts_of_below settled below accepted
  · -- A field of the type `void` shares its slot with fields of that type only.
    by_cases same : g.type = f.type
    · exact absurd (same ▸ void) notVoid
    · obtain ⟨u, _, found, reference, _⟩ := below.reference settled.coherent same
      simp only [primitiveKind?, found, Option.bind_some] at void
      simp [TypeInfo.isPrimitive, void] at reference

/-- Whatever type a handle could be cast to, an instance field that this view shows can be read, and
gives a value of a field that shares its slot. Where those fields agree, it is a value of the
field's own type. -/
theorem fields_typed {id : HandleId} {h : Handle} {view : TypeId} {name : String} {f : Field}
    (written : HandleWritten w) (live : w.handle? id = some h)
    (castable : w.registry.isAssignable h.target.cls view = true)
    (visible : w.registry.field? view name = some f) (onInstance : f.isStatic = false) :
    ∃ v, Invoke.getField f (some h.target) w = .ok v w ∧
      w.registry.Declares h.target.cls name v ∧
      (w.registry.SlotAgrees h.target.cls f → w.registry.primitiveKind? f.type ≠ some .void →
        w.registry.accepts f.type v = true) := by
  have sound := written.moment.sound
  have typed := written.slotsTyped
  have held := (sound.handles h (List.mem_of_getElem? live)).1
  obtain ⟨v, value⟩ := field_present sound ⟨held, castable⟩ visible onInstance
  obtain ⟨named, _⟩ := Registry.field?_declared visible
  have read : Invoke.getField f (some h.target) w = .ok v w := by
    unfold Invoke.getField
    rw [Task.get_bind]
    simp only [onInstance, value]
    rfl
  have declares := typed.declares_read sound held value
  refine ⟨v, read, named ▸ declares, ?_⟩
  exact fun agrees notVoid => declares.accepts sound.registry agrees notVoid

/-- Without a body a constructor runs no code. -/
theorem Invoke.construct_bodiless (run run' : Runner) {c : Constructor} (bodiless : c.body = none)
    (args : List Value) (handler : Option Handler) :
    construct run c args handler = construct run' c args handler := by
  simp only [construct, bodiless]

/-- A class with one field `x` and a constructor without parameters. -/
def slotDraft (name : String) (superclass : Option TypeId) (type : TypeId) : TypeDraft where
  name := name
  isInterface := false
  modifiers := .plain
  superclass := superclass
  interfaces := []
  methods := []
  constructors := [⟨[], .plain, false, none⟩]
  fields := [⟨"x", type, .plain, none⟩]

/-- A class and a subclass that both declare `x`, of these types. -/
def twoSlotTypes (base leaf : TypeId) : World :=
  (Action.define (slotDraft "t.Leaf" (some ⟨20⟩) leaf)).apply
    ((Action.define (slotDraft "t.Base" none base)).apply (.initial .default .always))

def leafConstructor : Constructor := ⟨⟨21⟩, [], .plain, false, none⟩

/-- An instance of the subclass and its handle. -/
def twoSlotWorld (base leaf : TypeId) : World :=
  (Action.wrap (.object ⟨0, ⟨21⟩⟩)).apply
    ((Action.construct leafConstructor [] none).apply (twoSlotTypes base leaf))

theorem handleWritten_twoSlotWorld {base leaf : TypeId}
    (declared : leafConstructor.Declared (twoSlotTypes base leaf).registry)
    (made : ((Action.construct leafConstructor [] none).apply
      (twoSlotTypes base leaf)).heap.Holds ⟨0, ⟨21⟩⟩) :
    HandleWritten (twoSlotWorld base leaf) := by
  have types : HandleWritten (twoSlotTypes base leaf) :=
    .step (.step (.initial _ _) (.act (.define (slotDraft "t.Base" none base)))
        (List.forall_mem_nil _) trivial)
      (.act (.define (slotDraft "t.Leaf" (some ⟨20⟩) leaf))) (List.forall_mem_nil _) trivial
  have object : HandleWritten ((Action.construct leafConstructor [] none).apply
      (twoSlotTypes base leaf)) :=
    .step types (.act (.construct leafConstructor [] none)) ⟨declared, List.forall_mem_nil _⟩
      (congrFun (Invoke.construct_bodiless _ _ rfl _ _) _)
  exact .step object (.act (.wrap _)) made trivial

theorem shadowed_field_untyped :
    HandleWritten (twoSlotWorld (.primitive .int) .string) ∧
      ∃ h f, (twoSlotWorld (.primitive .int) .string).handle? ⟨0⟩ = some h ∧
        (twoSlotWorld (.primitive .int) .string).registry.isAssignable h.target.cls ⟨20⟩ = true ∧
        (twoSlotWorld (.primitive .int) .string).registry.field? ⟨20⟩ "x" = some f ∧
        f.isStatic = false ∧ f.type = .primitive .int ∧
        Invoke.getField f (some h.target) (twoSlotWorld (.primitive .int) .string) =
          .ok .null (twoSlotWorld (.primitive .int) .string) ∧
        (twoSlotWorld (.primitive .int) .string).registry.accepts f.type .null = false := by
  refine ⟨handleWritten_twoSlotWorld ⟨_, rfl, List.mem_singleton_self _⟩ ⟨_, rfl, rfl⟩, ?_⟩
  exact ⟨_, _, rfl, rfl, rfl, rfl, rfl, rfl, rfl⟩

/-- The handle is cast to the superclass, and a number is written where the subclass has a text. -/
def overwrittenWorld : World :=
  (Action.setField (.instance ⟨0⟩) "x" (.int 5)).apply
    ((Move.castTo ⟨0⟩ ⟨20⟩).apply (twoSlotWorld .object .string))

theorem fields_overwrittenWorld :
    HandleWritten overwrittenWorld ∧
      ∃ h f v, overwrittenWorld.handle? ⟨0⟩ = some h ∧
        overwrittenWorld.registry.field? ⟨20⟩ "x" = some f ∧
        Invoke.getField f (some h.target) overwrittenWorld = .ok v overwrittenWorld ∧
        overwrittenWorld.registry.accepts f.type v = true := by
  have written : HandleWritten overwrittenWorld := by
    have object : HandleWritten (twoSlotWorld .object .string) :=
      handleWritten_twoSlotWorld ⟨_, rfl, List.mem_singleton_self _⟩ ⟨_, rfl, rfl⟩
    exact .step (.step object (.castTo ⟨0⟩ ⟨20⟩) trivial trivial)
      (.act (.setField (.instance ⟨0⟩) "x" (.int 5))) trivial trivial
  have shown : (overwrittenWorld.handle? ⟨0⟩).map Handle.target = some ⟨0, ⟨21⟩⟩ := by
    decide +kernel
  have field : (overwrittenWorld.registry.field? ⟨20⟩ "x").map
      (fun f => (f.name, f.type, f.isStatic)) = some ("x", .object, false) := by
    decide +kernel
  have agrees : ∀ t ∈ overwrittenWorld.registry.searchOrder ⟨21⟩, ∀ g ∈ t.fields, g.name = "x" →
      g.isStatic = false → overwrittenWorld.registry.isAssignable g.type .object = true := by
    decide +kernel
  obtain ⟨h, live, target⟩ := Option.map_eq_some_iff.mp shown
  obtain ⟨f, visible, same⟩ := Option.map_eq_some_iff.mp field
  obtain ⟨named, type, onInstance⟩ : f.name = "x" ∧ f.type = .object ∧ f.isStatic = false := by
    simpa using same
  have castable : overwrittenWorld.registry.isAssignable h.target.cls ⟨20⟩ = true := by
    rw [target]
    decide +kernel
  obtain ⟨v, read, _, typed⟩ := fields_typed written live castable visible onInstance
  refine ⟨written, h, f, v, live, visible, read, typed ?_ ?_⟩
  · rw [Registry.SlotAgrees, target, named, type]
    exact agrees
  · rw [type]
    decide +kernel

end Interop
