import Interop.Proofs.World.FieldKeeping

/-!
Code that writes no fields. Native code may write a field of its receiver without a check, so typed
slots need a discipline: fields are written through handles only. Sealed code goes as it is written
until it would write a field, and is refused there. A run in which native code writes no field goes
the same way with sealed code.
-/
namespace Interop

mutual

/-- The code with every write of a field refused, after all that comes before the write and only if
there is a field to write. -/
def Code.sealed : Code → Code
  | .setField name value => .sequence [value.sealed, .getField name, .deny name]
  | .sequence items => .sequence (Code.sealedAll items)
  | .callThis method args => .callThis method (Code.sealedAll args)
  | .callOn target method args => .callOn target.sealed method (Code.sealedAll args)
  | .add left right => .add left.sealed right.sealed
  | .choose condition yes no => .choose condition.sealed yes.sealed no.sealed
  | .length array => .length array.sealed
  | .element array index => .element array.sealed index
  | .storeElement array index value => .storeElement array.sealed index value.sealed
  | .newArray component elements => .newArray component (Code.sealedAll elements)
  | .newObject cls args => .newObject cls (Code.sealedAll args)
  | .log value => .log value.sealed
  | code => code

def Code.sealedAll : List Code → List Code
  | [] => []
  | first :: rest => first.sealed :: Code.sealedAll rest

end

mutual

theorem Code.writes_sealed : ∀ c : Code, c.sealed.writes = false
  | .setField name value => by simp [Code.sealed, Code.writes, Code.writesAny, value.writes_sealed]
  | .sequence items => Code.writesAny_sealedAll items
  | .callThis _ args => Code.writesAny_sealedAll args
  | .callOn target _ args => by
    simp [Code.sealed, Code.writes, target.writes_sealed, Code.writesAny_sealedAll args]
  | .add left right => by
    simp [Code.sealed, Code.writes, left.writes_sealed, right.writes_sealed]
  | .choose condition yes no => by
    simp [Code.sealed, Code.writes, condition.writes_sealed, yes.writes_sealed, no.writes_sealed]
  | .length array => array.writes_sealed
  | .element array _ => array.writes_sealed
  | .storeElement array _ value => by
    simp [Code.sealed, Code.writes, array.writes_sealed, value.writes_sealed]
  | .newArray _ elements => Code.writesAny_sealedAll elements
  | .newObject _ args => Code.writesAny_sealedAll args
  | .log value => value.writes_sealed
  | .literal _ => rfl
  | .argument _ => rfl
  | .argumentCount => rfl
  | .this => rfl
  | .getField _ => rfl
  | .raise _ => rfl
  | .deny _ => rfl
  | .invalid => rfl

theorem Code.writesAny_sealedAll : ∀ cs : List Code, Code.writesAny (Code.sealedAll cs) = false
  | [] => rfl
  | first :: rest => by
    simp [Code.sealedAll, Code.writesAny, first.writes_sealed, Code.writesAny_sealedAll rest]

end

namespace Eval

open World (Carries)

/-- The engine with all native code sealed. -/
def sealedEngine : (depth : Nat) → Runner
  | 0 => engine 0
  | depth + 1 => {
    native := fun body frame => code (sealedEngine depth) frame body.sealed
    script := fun id this args => do
      match (← get).functions[id.index]? with
      | some body => script (sealedEngine depth) ⟨this, args⟩ body
      | none => return .null }

variable {w : World} {run : Runner}

theorem carries_sealed (runs : run.Stays Carries) (frame : Frame) (c : Code) :
    (code run frame c.sealed).Stays Carries w := by
  refine Carries.steady.stays_code runs frame c.sealed ?_
  intro writes
  rw [c.writes_sealed] at writes
  cases writes

theorem carries_sealedEngine (depth : Nat) : (sealedEngine depth).Stays Carries := by
  induction depth with
  | zero => exact ⟨fun _ _ _ => .throw _, fun _ _ _ _ => .throw _⟩
  | succ depth ih =>
    refine ⟨fun body frame _ => carries_sealed ih frame body, ?_⟩
    intro id this args w
    refine .get ?_
    split
    · exact Carries.steady.stays_script ih _ _
    · exact .pure _

end Eval

end Interop
