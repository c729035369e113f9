import Interop.Event
import Interop.Registry.Members

/-!
Generated types: for a class a subclass, and for an interface a class that implements it, so that
the instances can carry script overrides. Each is made once.
-/
namespace Interop.Registry

/-- Why `type` takes no generated subclass. -/
def subclassBar? (type : TypeInfo) : Option InheritanceBar :=
  if type.isInterface then some .interface
  else if !type.isClass then some .notClass
  else if type.modifiers.isFinal then some .final
  else if type.modifiers.isPrivate then some .priv
  else none

/-- The accessible constructors of the base, made public, for the generated class `id`. -/
def inheritedConstructors (r : Registry) (id base : TypeId) : List Constructor :=
  (r.constructors base).map fun c => { c with declaring := id, modifiers := .plain }

def subclassEvent (base : String) (id : TypeId) : Event where
  level := .debug
  message := "generated subclass"
  details := [("base", .text base), ("id", .text id.text)]

def generateSubclass (base : TypeId) (r : Registry) : EStateM.Result NativeError Registry TypeId × List Event :=
  match r.require base with
  | .error e => (.error e r, [])
  | .ok baseType =>
    match subclassBar? baseType with
    | some bar => (.error (.notInheritable baseType.name bar) r, [])
    | none =>
      match r.subclasses.lookup base with
      | some existing => (.ok existing r, [])
      | none =>
        let (id, r) := r.reserve
        let type := { TypeInfo.blank id with
          name := baseType.name ++ "$Subclass"
          superclass := some base
          constructors := r.inheritedConstructors id base
          generated := true }
        match r.install type with
        | .error e => (.error e r, [])
        | .ok r => (.ok id { r with subclasses := (base, id) :: r.subclasses }, [subclassEvent baseType.name id])

def implementationEvent (interface : String) (id : TypeId) : Event where
  level := .debug
  message := "generated interface implementation"
  details := [("interface", .text interface), ("id", .text id.text)]

def generateImplementation (interface : TypeId) (r : Registry) :
    EStateM.Result NativeError Registry TypeId × List Event :=
  match r.require interface with
  | .error e => (.error e r, [])
  | .ok interfaceType =>
    if !interfaceType.isInterface then (.error (.illegalArgument (.notInterface interfaceType.name)) r, [])
    else
      match r.implementations.lookup interface with
      | some existing => (.ok existing r, [])
      | none =>
        let (id, r) := r.reserve
        let type := { TypeInfo.blank id with
          name := interfaceType.name ++ "$Implementation"
          superclass := some .object
          interfaces := [interface]
          constructors := [
            { declaring := id
              params := []
              modifiers := .plain
              variadic := false
              body := none }]
          generated := true }
        match r.install type with
        | .error e => (.error e r, [])
        | .ok r =>
          (.ok id { r with implementations := (interface, id) :: r.implementations },
            [implementationEvent interfaceType.name id])

end Interop.Registry
