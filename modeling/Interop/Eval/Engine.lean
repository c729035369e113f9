import Interop.Eval.Native
import Interop.Eval.Script

/-!
The engine: native code and script functions call each other, and the number of bodies that run at
the same time is bounded.
-/
namespace Interop.Eval

/-- How many bodies may run at the same time. -/
def maxDepth : Nat := 24

/-- Runs code with room for `depth` bodies; without room, entering a body fails. -/
def engine : (depth : Nat) → Runner
  | 0 => {
    native := fun _ _ => throw (.thrown "too deep")
    script := fun _ _ _ => throw (.invalidArgument .tooDeep) }
  | depth + 1 => {
    native := fun body frame => code (engine depth) frame body
    script := fun id this args => do
      match (← get).functions[id.index]? with
      | some body => script (engine depth) ⟨this, args⟩ body
      | none => return .null }

/-- The engine in which nothing runs yet. -/
def run : Runner := engine maxDepth

end Interop.Eval
