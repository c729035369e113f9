import Interop.Decimal.Binary
import Interop.Text.Describe

/-!
Settings of the bridge, and what can be wrong with them.
-/
namespace Interop

structure Config where
  /-- How many class handles are kept. -/
  classCacheSize : Nat
  /-- Whether distances between types are kept. -/
  memoizeDistances : Bool
  deriving DecidableEq, Repr

def Config.default : Config := ⟨25, true⟩

inductive ConfigFault where
  | bridgeNotTable
  | noCacheRoom
  deriving DecidableEq, Repr

def ConfigFault.message : ConfigFault → String
  | bridgeNotTable => "`bridge` must be a table"
  | noCacheRoom => "class_cache_size must be at least 1"

inductive ConfigError where
  | unreadable
  | malformed
  | unwritable
  | invalid (fault : ConfigFault)
  deriving DecidableEq, Repr

/-- The text of a failed validation. -/
def ConfigFault.report (fault : ConfigFault) : String := "Invalid bridge config: " ++ fault.message

def Config.validate (config : Config) : Except ConfigError Unit :=
  if config.classCacheSize = 0 then .error (.invalid .noCacheRoom) else .ok ()

def Config.describe (config : Config) : String :=
  Text.recordText "BridgeConfig" [
    ("class_cache_size", Decimal.natText config.classCacheSize),
    ("memoize_distances", Text.boolText config.memoizeDistances)]

end Interop
