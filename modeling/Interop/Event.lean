/-!
Events: what the program reports about its own running, beside the answers it gives.
-/
namespace Interop

inductive Level where
  | error | warn | debug | trace
  deriving DecidableEq, Repr

def Level.name : Level → String
  | error => "ERROR"
  | warn => "WARN"
  | debug => "DEBUG"
  | trace => "TRACE"

/-- The content of a field of an event. -/
inductive Detail where
  | text (text : String)
  | count (count : Nat)
  deriving DecidableEq, Repr

structure Event where
  level : Level
  message : String
  details : List (String × Detail)
  deriving DecidableEq, Repr

end Interop
