import Interop.Json.Reader
import Interop.Json.Writer
import Interop.Registry.Members

/-!
A catalog lists the classes and interfaces of a registry with the members a script may reach, and
can be written as a JSON document and read back.
-/
namespace Interop

structure MemberEntry where
  name : String
  parameters : List String
  returns : String
  modifiers : List String
  variadic : Bool
  deriving DecidableEq, Repr

structure FieldEntry where
  name : String
  type : String
  modifiers : List String
  deriving DecidableEq, Repr

structure ClassEntry where
  name : String
  kind : String
  modifiers : List String
  superclass : Option String
  interfaces : List String
  generated : Bool
  constructors : List MemberEntry
  methods : List MemberEntry
  fields : List FieldEntry
  deriving DecidableEq, Repr

structure Catalog where
  classes : List ClassEntry
  deriving DecidableEq, Repr

inductive CatalogError where
  | unreadable
  | malformed
  deriving DecidableEq, Repr

namespace Registry

/-- A constructor under its own name; it gives the class itself. -/
def constructorEntry (r : Registry) (t : TypeInfo) (c : Constructor) : MemberEntry where
  name := constructorName
  parameters := c.params.map r.typeName
  returns := t.name
  modifiers := c.modifiers.names
  variadic := c.variadic

def methodEntry (r : Registry) (m : Method) : MemberEntry where
  name := m.name
  parameters := m.params.map r.typeName
  returns := r.typeName m.returns
  modifiers := m.modifiers.names
  variadic := m.variadic

def fieldEntry (r : Registry) (f : Field) : FieldEntry where
  name := f.name
  type := r.typeName f.type
  modifiers := f.modifiers.names

/-- The entry of a class or an interface, with its accessible declared members. -/
def entryOf? (r : Registry) (t : TypeInfo) : Option ClassEntry :=
  let entry (kind : String) : ClassEntry := {
    name := t.name
    kind := kind
    modifiers := t.modifiers.names
    superclass := t.superclass.map r.typeName
    interfaces := t.interfaces.map r.typeName
    generated := t.generated
    constructors := (t.constructors.filter (fun c => c.modifiers.isAccessible)).map (r.constructorEntry t)
    methods := (t.methods.filter (fun m => m.modifiers.isAccessible)).map r.methodEntry
    fields := (t.fields.filter (fun f => f.modifiers.isAccessible)).map r.fieldEntry }
  match t.kind with
  | .cls => some (entry "class")
  | .interface => some (entry "interface")
  | _ => none

def catalog (r : Registry) : Catalog := ⟨r.types.filterMap r.entryOf?⟩

end Registry

/-- The first entry with a name. -/
def Catalog.class? (catalog : Catalog) (name : String) : Option ClassEntry :=
  catalog.classes.find? (fun entry => entry.name == name)

namespace MemberEntry

def toJson (entry : MemberEntry) : Json := .ofMembers [
  ("name", .ofString entry.name),
  ("parameters", .array (entry.parameters.map .ofString)),
  ("returns", .ofString entry.returns),
  ("modifiers", .array (entry.modifiers.map .ofString)),
  ("varargs", .boolean entry.variadic)]

def ofJson? (json : Json) : Option MemberEntry := do
  let fields ← json.fields? ["name", "parameters", "returns", "modifiers", "varargs"] 4
  return {
    name := ← Json.required? fields "name" Json.string?
    parameters := ← Json.required? fields "parameters" (Json.listOf? Json.string?)
    returns := ← Json.required? fields "returns" Json.string?
    modifiers := ← Json.required? fields "modifiers" (Json.listOf? Json.string?)
    variadic := ← Json.optional? fields "varargs" Json.boolean? false }

end MemberEntry

namespace FieldEntry

def toJson (entry : FieldEntry) : Json := .ofMembers [
  ("name", .ofString entry.name),
  ("type", .ofString entry.type),
  ("modifiers", .array (entry.modifiers.map .ofString))]

def ofJson? (json : Json) : Option FieldEntry := do
  let fields ← json.fields? ["name", "type", "modifiers"] 3
  return {
    name := ← Json.required? fields "name" Json.string?
    type := ← Json.required? fields "type" Json.string?
    modifiers := ← Json.required? fields "modifiers" (Json.listOf? Json.string?) }

end FieldEntry

namespace ClassEntry

/-- A missing superclass and an empty list of interfaces are left out. -/
def toJson (entry : ClassEntry) : Json := .ofMembers (
  [("name", .ofString entry.name),
   ("kind", .ofString entry.kind),
   ("modifiers", .array (entry.modifiers.map .ofString))] ++
  (match entry.superclass with
    | some superclass => [("superclass", .ofString superclass)]
    | none => []) ++
  (if entry.interfaces.isEmpty then [] else [("interfaces", .array (entry.interfaces.map .ofString))]) ++
  [("generated", .boolean entry.generated),
   ("constructors", .array (entry.constructors.map MemberEntry.toJson)),
   ("methods", .array (entry.methods.map MemberEntry.toJson)),
   ("fields", .array (entry.fields.map FieldEntry.toJson))])

def ofJson? (json : Json) : Option ClassEntry := do
  let fields ← json.fields? ["name", "kind", "modifiers", "superclass", "interfaces", "generated",
    "constructors", "methods", "fields"] 4
  return {
    name := ← Json.required? fields "name" Json.string?
    kind := ← Json.required? fields "kind" Json.string?
    modifiers := ← Json.required? fields "modifiers" (Json.listOf? Json.string?)
    superclass := ← Json.optional? fields "superclass" (Json.nullable? Json.string?) none
    interfaces := ← Json.optional? fields "interfaces" (Json.listOf? Json.string?) []
    generated := ← Json.optional? fields "generated" Json.boolean? false
    constructors := ← Json.optional? fields "constructors" (Json.listOf? MemberEntry.ofJson?) []
    methods := ← Json.optional? fields "methods" (Json.listOf? MemberEntry.ofJson?) []
    fields := ← Json.optional? fields "fields" (Json.listOf? FieldEntry.ofJson?) [] }

end ClassEntry

namespace Catalog

def toJson (catalog : Catalog) : Json :=
  .ofMembers [("classes", .array (catalog.classes.map ClassEntry.toJson))]

def ofJson? (json : Json) : Option Catalog := do
  let fields ← json.fields? ["classes"] 1
  return { classes := ← Json.required? fields "classes" (Json.listOf? ClassEntry.ofJson?) }

/-- The catalog as a document. -/
def render (catalog : Catalog) : String := catalog.toJson.render

/-- A catalog from a document. -/
def parse (document : String) : Except CatalogError Catalog :=
  match (Json.parse? document).bind ofJson? with
  | some catalog => .ok catalog
  | none => .error .malformed

/-- A catalog from a file, if there is one with that content. -/
def load : (content : Option String) → Except CatalogError Catalog
  | some content => parse content
  | none => .error .unreadable

end Catalog

end Interop
