import Interop.Proofs.Dispatch.Targets
import Interop.Proofs.Marshal.Outcomes
import Interop.Proofs.World.Moments

/-!
Conversions at every moment. A value that was converted to a type is accepted by it. Where the type
is an array type, the result is the value itself or a new array of exactly that type, with as many
elements as the value has. Overrides answer through a conversion, so what a script function returns
in place of a method is of the type that the method declares.
-/
namespace Interop

open Marshal (Converted IsMade convert)
open Registry (runtimeType?)

variable {w w' : World} {v u : Value} {c target : TypeId} {start : Nat}

/-- How many elements a value has for an array: those of an array, or the units of a text. -/
def Heap.itemCount? (heap : Heap) : Value → Option Nat
  | .object ref => if heap.isArray ref then some (heap.elements ref).length else none
  | .string text => some (Text.units text).length
  | _ => none

theorem World.Allocates.itemCount? (adds : w.Allocates w') (known : w.heap.Knows v) :
    w'.heap.itemCount? v = w.heap.itemCount? v := by
  cases v with
  | object ref =>
    obtain ⟨o, found, _⟩ := known
    simp [Heap.itemCount?, Heap.isArray, Heap.elements, found, adds.get? found]
  | _ => rfl

/-- An array type is given the value itself, or a new array for it. -/
theorem Marshal.Converted.of_array (converted : Converted start w target v u)
    (array : w.registry.component? target = some c) :
    (u = v ∧ (v = .null ∨ runtimeType? v = some target)) ∨
    ∃ ref, u = .object ref ∧ IsMade start target w ref ∧
      w.heap.itemCount? v = some (w.heap.elements ref).length := by
  cases converted with
  | primitive isPrimitive _ =>
    obtain ⟨t, found, isArray⟩ := Option.bind_eq_some_iff.mp array
    simp [Registry.primitiveKind?, found, TypeInfo.primitiveKind?,
      TypeInfo.component?_eq.mp isArray] at isPrimitive
  | accepted _ noArray _ =>
    rw [array] at noArray
    cases noArray
  | null => exact Or.inl ⟨rfl, Or.inl rfl⟩
  | own _ same => exact Or.inl ⟨rfl, Or.inr (congrArg some same)⟩
  | copied _ _ isArray made count _ =>
    refine Or.inr ⟨_, rfl, made, ?_⟩
    simp [Heap.itemCount?, isArray, count]
  | units _ _ made elements =>
    refine Or.inr ⟨_, rfl, made, ?_⟩
    simp [Heap.itemCount?, elements]

/-- The conversions that can be made in a world. -/
structure World.ConversionsTyped (w : World) : Prop where
  /-- What a conversion gives is of the type that was asked for. -/
  accepted : ∀ {v target u w'}, w.heap.Knows v → convert v target w = .ok u w' →
    w'.registry.accepts target u = true
  /-- For an array type it is null or an array of that very type: the value itself, or one that was
  not there before and has as many elements as the value. -/
  array : ∀ {v target c u w'}, w.heap.Knows v → w.registry.component? target = some c →
    convert v target w = .ok u w' →
    (u = v ∧ (v = .null ∨ runtimeType? v = some target)) ∨
    ∃ ref, u = .object ref ∧ ref.cls = target ∧ w.heap.get? ref = none ∧ w'.heap.Holds ref ∧
      w'.heap.isArray ref = true ∧ w.heap.itemCount? v = some (w'.heap.elements ref).length
  /-- Level by level the elements are what the conversion to the component makes of them, and
  nothing but arrays is added. -/
  becomes : ∀ {v target u w'}, convert v target w = .ok u w' →
    w.Allocates w' ∧ Converted w.heap.objects.length w' target v u
  /-- What an override answers is of the type that the method declares, whatever runs the script. -/
  override : ∀ {run dispatcher receiver m function args u w'}, Runner.Safe run →
    w.heap.Holds receiver → (∀ v ∈ args, w.heap.Knows v) → m.returns ≠ .void →
    Invoke.callOverride run dispatcher receiver m function args w = .ok u w' →
    w'.registry.accepts m.returns u = true
  /-- The engine is such a runner, however deep in calls. -/
  engine : ∀ depth, (Eval.engine depth).Safe

/-- At every moment conversion gives values of the type that was asked for. -/
theorem conversions_typed (moment : Moment w) : w.ConversionsTyped := by
  have sound := moment.sound
  constructor
  case accepted =>
    intro v target u w' known success
    exact ((Marshal.safe_convert sound known target).ok success).2.2.2
  case array =>
    intro v target c u w' known array success
    obtain ⟨adds, converted, _⟩ := Marshal.convert_ok sound.registry success
    rw [← adds.itemCount? known]
    rcases converted.of_array (adds.registry ▸ array) with kept | ⟨ref, rfl, made, count⟩
    · exact Or.inl kept
    · have absent : w.heap.get? ref = none := List.getElem?_eq_none made.fresh
      exact Or.inr ⟨ref, rfl, made.cls, absent, made.held, made.isArray, count⟩
  case becomes =>
    intro v target u w' success
    obtain ⟨adds, converted, _⟩ := Marshal.convert_ok sound.registry success
    exact ⟨adds, converted⟩
  case override =>
    intro run dispatcher receiver m function args u w' safeRun held known answers success
    have safe := Invoke.safe_callOverride safeRun sound dispatcher m function held known
    exact (safe.ok success).2.2.2 answers
  case engine => exact Eval.safe_engine

/-- The notes of a choir. -/
def notes : List Value := [.string "do", .string "re"]

/-- A choir with its notes, in a world with arrays of characters and of any objects. -/
def scoreWorld : World :=
  (Action.arrayOf (.primitive .char)).apply
    ((Action.arrayOf .object).apply ((Action.newArray .string notes).apply choirWorld))

/-- The array of the notes. -/
def score : ObjectRef := ⟨1, ⟨23⟩⟩

theorem reachable_scoreWorld : Reachable scoreWorld := by
  have array : Reachable ((Action.newArray .string notes).apply choirWorld) := by
    refine .step reachable_choirWorld (.newArray _ _) ?_
    intro v member
    simp only [notes, List.mem_cons, List.not_mem_nil, or_false] at member
    rcases member with rfl | rfl <;> trivial
  exact .step (.step array (.arrayOf _) trivial) (.arrayOf _) trivial

/-- The notes become an array of objects, a text becomes an array of characters, and a script
function answers for `greet`. -/
theorem conversions_scoreWorld :
    Moment scoreWorld ∧ scoreWorld.ConversionsTyped ∧
      (∃ ref w', convert (.object score) ⟨24⟩ scoreWorld = .ok (.object ref) w' ∧
        ref.cls = ⟨24⟩ ∧ (w'.heap.elements ref).length = 2) ∧
      (∃ ref w', convert (.string "sol") ⟨25⟩ scoreWorld = .ok (.object ref) w' ∧
        ref.cls = ⟨25⟩ ∧ (w'.heap.elements ref).length = 3) ∧
      ∃ m ∈ scoreWorld.registry.allMethods ⟨20⟩, m.name = "greet" ∧ m.returns = .string ∧
        ∃ u w', Invoke.callOverride Eval.run ⟨0⟩ choir m ⟨0⟩ [] scoreWorld = .ok u w' ∧
          w'.registry.accepts .string u = true := by
  have moment := moment_of_reachable reachable_scoreWorld
  have typed := conversions_typed moment
  have made : ∀ {v target c n}, scoreWorld.heap.Knows v →
      scoreWorld.registry.component? target = some c →
      scoreWorld.heap.itemCount? v = some n → v ≠ .null → runtimeType? v ≠ some target →
      Task.Succeeds (convert v target) scoreWorld →
      ∃ ref w', convert v target scoreWorld = .ok (.object ref) w' ∧ ref.cls = target ∧
        (w'.heap.elements ref).length = n := by
    intro v target c n known array items given other ⟨u, w', success⟩
    rcases typed.array known array success with ⟨_, null | same⟩ | ⟨ref, rfl, cls, _, _, _, count⟩
    · exact absurd null given
    · exact absurd same other
    · rw [items] at count
      exact ⟨ref, w', success, cls, (Option.some.inj count).symm⟩
  obtain ⟨m, listed, name, returns, u, w', success⟩ :
      ∃ m ∈ scoreWorld.registry.allMethods ⟨20⟩, m.name = "greet" ∧ m.returns = .string ∧
        Task.Succeeds (Invoke.callOverride Eval.run ⟨0⟩ choir m ⟨0⟩ []) scoreWorld := by
    decide +kernel
  have held : scoreWorld.heap.Holds choir := ⟨_, rfl, rfl⟩
  have answers : m.returns ≠ .void := by
    rw [returns]
    decide
  refine ⟨moment, typed, ?_, ?_, m, listed, name, returns, u, w', success, ?_⟩
  · exact made ⟨_, rfl, rfl⟩ rfl rfl (by simp) (by decide) (by decide +kernel)
  · exact made trivial rfl rfl (by simp) (by decide) (by decide +kernel)
  · rw [← returns]
    exact typed.override (typed.engine _) held (by simp) answers success

end Interop
