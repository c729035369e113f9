import Interop.Registry.Subtyping

/-!
Array types, made on first use, and look-up by name, which makes them for names that end in `[]`.
-/
namespace Interop.Registry

def arraySuffix : String := "[]"

def arrayType (id component : TypeId) (name : String) : TypeInfo :=
  { TypeInfo.blank id with
    name := name
    kind := .array component
    modifiers := .publicFinal
    superclass := some .object }

/-- The array type of a component. An array of a type under definition waits for its name until the
component is published. -/
def arrayOf (component : TypeId) : EStateM NativeError Registry TypeId := fun r =>
  match r.arrays.lookup component with
  | some existing => .ok existing r
  | none =>
    match r.require component with
    | .error e => .error e r
    | .ok componentType =>
      if componentType.primitiveKind? = some .void then .error (.illegalArgument .voidArray) r
      else
        let (id, r) := r.reserve
        let type := arrayType id component (componentType.name ++ arraySuffix)
        if r.isPending component then
          .ok id ({ r with
            pending := id :: r.pending
            arrays := (component, id) :: r.arrays }.fill type)
        else
          match r.install type with
          | .error e => .error e r
          | .ok r => .ok id { r with arrays := (component, id) :: r.arrays }

/-- Takes the brackets off the end of a name given in reverse: how many pairs, and the rest. -/
def stripBrackets : List Char → Nat × List Char
  | ']' :: '[' :: rest => let (count, base) := stripBrackets rest; (count + 1, base)
  | chars => (0, chars)

/-- A name without the brackets at its end, and their number. -/
def splitArrayName (name : String) : String × Nat :=
  let (count, base) := stripBrackets name.toList.reverse
  (String.ofList base.reverse, count)

def arrayName (base : String) (dimensions : Nat) : String :=
  base ++ String.join (List.replicate dimensions arraySuffix)

/-- Looks up a name with brackets: the name itself, or else the array type of the name with one
pair less. -/
def lookupArray (base : String) : (dimensions : Nat) → Registry → Option TypeId × Registry
  | 0, r => (r.named? base, r)
  | dimensions + 1, r =>
    match r.named? (arrayName base (dimensions + 1)) with
    | some id => (some id, r)
    | none =>
      match lookupArray base dimensions r with
      | (none, r) => (none, r)
      | (some component, r) =>
        match arrayOf component r with
        | .ok id r => (some id, r)
        | .error _ r => (none, r)

/-- The type of a name. -/
def lookup (name : String) (r : Registry) : Option TypeId × Registry :=
  let (base, dimensions) := splitArrayName name
  lookupArray base dimensions r

/-- The element, from `index` on, that the component type does not accept. -/
def checkElements (r : Registry) (component : TypeId) : (index : Nat) → List Value → Except NativeError Unit
  | _, [] => .ok ()
  | index, element :: rest =>
    if r.accepts component element then checkElements r component (index + 1) rest
    else .error (.illegalArgument (.elementMismatch index (r.typeName component) element.describe))

/-- The components that an array type is nested over, outermost first. The last is no array; types
nest no deeper than there are slots. -/
def components (r : Registry) : (fuel : Nat) → TypeId → List TypeId
  | 0, _ => []
  | fuel + 1, id =>
    match r.component? id with
    | some component => component :: components r fuel component
    | none => []

end Interop.Registry
