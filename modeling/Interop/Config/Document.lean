import Interop.Config.Basic
import Interop.Toml.Document
import Interop.Toml.Writer

/-!
Settings as a TOML document: they are the table `bridge` of the document, or the whole document when
it has no such entry.
-/
namespace Interop.Config

/-- The name of the table that holds the settings. -/
def sectionName : String := "bridge"

/-- One setting. A negative size and a setting that is not known are refused. -/
def set? (config : Config) (entry : String × Toml.Value) : Option Config :=
  match entry with
  | ("class_cache_size", .integer size) =>
    if 0 ≤ size then some { config with classCacheSize := size.toNat } else none
  | ("memoize_distances", .boolean memoize) => some { config with memoizeDistances := memoize }
  | _ => none

/-- The settings of a table; what it leaves out has its default. -/
def ofEntries? (entries : List (String × Toml.Value)) : Option Config := entries.foldlM set? .default

/-- The settings of a document. -/
def parse (document : String) : Except ConfigError Config :=
  match Toml.parse? document with
  | none => .error .malformed
  | some entries =>
    let found : Except ConfigError (List (String × Toml.Value)) :=
      match entries.lookup sectionName with
      | some (.table inner) => .ok inner
      | some _ => .error (.invalid .bridgeNotTable)
      | none => .ok entries
    match found with
    | .error error => .error error
    | .ok settings =>
      match ofEntries? settings with
      | none => .error .malformed
      | some config => config.validate.map (fun _ => config)

/-- The settings of a file, if there is one with that content. -/
def load : (content : Option String) → Except ConfigError Config
  | some content => parse content
  | none => .error .unreadable

/-- The settings as a table. -/
def toEntries (config : Config) : List (String × Toml.Value) := [
  ("class_cache_size", .integer config.classCacheSize),
  ("memoize_distances", .boolean config.memoizeDistances)]

/-- The settings as a document of one table, unless there is a number that no document holds. -/
def render (config : Config) : Except ConfigError String :=
  match Toml.writeTable? sectionName config.toEntries with
  | some text => .ok text
  | none => .error .unwritable

end Interop.Config
