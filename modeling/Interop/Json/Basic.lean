import Interop.Decimal.Binary

/-!
Values of JSON documents. Numbers keep the digits they are written with. A text whose escapes leave
half of a surrogate pair alone has no characters; it is `none`.
-/
namespace Interop

inductive Json where
  | null
  | boolean (value : Bool)
  | number (digits : String)
  | string (text : Option String)
  | array (items : List Json)
  | object (members : List (Option String × Json))

namespace Json

/-- A text with characters. -/
def ofString (text : String) : Json := .string (some text)

def ofInt (value : Int) : Json := .number (Decimal.intText value)

def ofNat (value : Nat) : Json := .number (Decimal.natText value)

/-- An object with the given members in this order. -/
def ofMembers (members : List (String × Json)) : Json :=
  .object (members.map (fun member => (some member.1, member.2)))

def string? : Json → Option String
  | .string text => text
  | _ => none

def boolean? : Json → Option Bool
  | .boolean value => some value
  | _ => none

/-- The items of an array, each read by `read`. -/
def listOf? {α : Type} (read : Json → Option α) : Json → Option (List α)
  | .array items => items.mapM read
  | _ => none

/-- The fields of a record. A record is an object, where other members are passed over and none of
its own may come twice; or an array of its fields in their order, of which at least `least` must be
there and none may be too many. -/
def fields? (names : List String) (least : Nat) : Json → Option (List (String × Json))
  | .array items =>
    if least ≤ items.length ∧ items.length ≤ names.length then some (names.zip items) else none
  | .object members => do
    let named ← members.mapM (fun member => member.1.map (fun name => (name, member.2)))
    let known := named.filter (fun member => names.contains member.1)
    if (known.map Prod.fst).Nodup then some known else none
  | _ => none

/-- A field that must be there. -/
def required? {α : Type} (fields : List (String × Json)) (name : String) (read : Json → Option α) :
    Option α :=
  (fields.lookup name).bind read

/-- A field that has a value when it is left out. -/
def optional? {α : Type} (fields : List (String × Json)) (name : String) (read : Json → Option α)
    (absent : α) : Option α :=
  match fields.lookup name with
  | some value => read value
  | none => some absent

/-- Something that may be null. -/
def nullable? {α : Type} (read : Json → Option α) : Json → Option (Option α)
  | .null => some none
  | value => (read value).map some

end Json

end Interop
