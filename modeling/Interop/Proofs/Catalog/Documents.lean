import Interop.Catalog
import Interop.Proofs.Json.RoundTrip

/-!
Catalogs as documents. A record is written as an object with a member for every field, apart from
those that are left out when they have their default; reading puts the default back. So a catalog is
read back from its document as it was, with any entries and any texts in them.

This rests on one fact about the format, `Json.parse?_render`: a written document of texts, flags,
arrays and objects is read as the value that it was written for.
-/
namespace Interop

namespace Json

@[simp] theorem plain_ofString (text : String) : Plain (ofString text) := rfl

@[simp] theorem plain_boolean (flag : Bool) : Plain (.boolean flag) := trivial

@[simp] theorem string?_ofString (text : String) : (ofString text).string? = some text := rfl

theorem nullable?_ofString (text : String) :
    nullable? string? (ofString text) = some (some text) := rfl

theorem plain_listed {α : Type} {toJson : α → Json} (plain : ∀ x, Plain (toJson x)) (xs : List α) :
    Plain (.array (xs.map toJson)) := by
  induction xs with
  | nil => trivial
  | cons x xs ih => exact ⟨plain x, ih⟩

@[simp] theorem plain_texts (texts : List String) : Plain (.array (texts.map ofString)) :=
  plain_listed plain_ofString texts

theorem plain_ofMembers {members : List (String × Json)}
    (plain : ∀ member ∈ members, Plain member.2) : Plain (ofMembers members) := by
  induction members with
  | nil => trivial
  | cons member members ih =>
    obtain ⟨first, others⟩ := List.forall_mem_cons.mp plain
    exact ⟨rfl, first, ih others⟩

theorem listOf?_listed {α : Type} {toJson : α → Json} {ofJson? : Json → Option α}
    (back : ∀ x, ofJson? (toJson x) = some x) (xs : List α) :
    listOf? ofJson? (.array (xs.map toJson)) = some xs := by
  induction xs with
  | nil => rfl
  | cons x xs ih =>
    simp only [listOf?, List.map_cons, List.mapM_cons, back] at ih ⊢
    rw [ih]
    rfl

@[simp] theorem listOf?_texts (texts : List String) :
    listOf? string? (.array (texts.map ofString)) = some texts :=
  listOf?_listed string?_ofString texts

/-- An object of known members, none of them twice, is a record of them. -/
theorem fields?_ofMembers {names : List String} {members : List (String × Json)} (least : Nat)
    (known : ∀ member ∈ members, member.1 ∈ names) (nodup : (members.map Prod.fst).Nodup) :
    (ofMembers members).fields? names least = some members := by
  have named : (members.map (fun member => (some member.1, member.2))).mapM
      (fun member : Option String × Json => member.1.map (fun name => (name, member.2))) =
      some members := by
    clear known nodup
    induction members with
    | nil => rfl
    | cons member members ih =>
      rw [List.map_cons, List.mapM_cons, ih]
      rfl
  have all : members.filter (fun member => names.contains member.1) = members := by
    simpa [List.filter_eq_self] using known
  simp only [ofMembers, fields?, named, Option.bind_eq_bind, Option.bind_some, all, nodup, if_true]

end Json

namespace MemberEntry

theorem plain_toJson (entry : MemberEntry) : Json.Plain entry.toJson := by
  apply Json.plain_ofMembers
  simp

theorem ofJson?_toJson (entry : MemberEntry) : ofJson? entry.toJson = some entry := by
  unfold ofJson? toJson
  rw [Json.fields?_ofMembers 4 (by simp) (by simp)]
  simp [Json.required?, Json.optional?, List.lookup_cons, Json.boolean?]

end MemberEntry

namespace FieldEntry

theorem plain_toJson (entry : FieldEntry) : Json.Plain entry.toJson := by
  apply Json.plain_ofMembers
  simp

theorem ofJson?_toJson (entry : FieldEntry) : ofJson? entry.toJson = some entry := by
  unfold ofJson? toJson
  rw [Json.fields?_ofMembers 3 (by simp) (by simp)]
  simp [Json.required?, List.lookup_cons]

end FieldEntry

namespace ClassEntry

theorem plain_toJson (entry : ClassEntry) : Json.Plain entry.toJson := by
  have members := Json.plain_listed MemberEntry.plain_toJson
  have fields := Json.plain_listed FieldEntry.plain_toJson
  apply Json.plain_ofMembers
  cases entry.superclass <;> by_cases alone : entry.interfaces = [] <;>
    simp [alone, members, fields]

/-- Also where the superclass or the interfaces have been left out. -/
theorem ofJson?_toJson (entry : ClassEntry) : ofJson? entry.toJson = some entry := by
  have members := Json.listOf?_listed MemberEntry.ofJson?_toJson
  have fields := Json.listOf?_listed FieldEntry.ofJson?_toJson
  obtain ⟨name, kind, modifiers, superclass, interfaces, generated, constructors, methods, _⟩ :=
    entry
  unfold ofJson? toJson
  cases superclass <;> by_cases alone : interfaces = [] <;>
  · simp only [alone, List.isEmpty_iff, if_true, if_false]
    rw [Json.fields?_ofMembers 4 (by simp) (by simp)]
    simp [Json.required?, Json.optional?, Json.nullable?_ofString, List.lookup_cons, Json.boolean?,
      members, fields]

end ClassEntry

namespace Catalog

theorem plain_toJson (catalog : Catalog) : Json.Plain catalog.toJson := by
  have entries := Json.plain_listed ClassEntry.plain_toJson catalog.classes
  apply Json.plain_ofMembers
  simp [entries]

theorem ofJson?_toJson (catalog : Catalog) : ofJson? catalog.toJson = some catalog := by
  have entries := Json.listOf?_listed ClassEntry.ofJson?_toJson catalog.classes
  unfold ofJson? toJson
  rw [Json.fields?_ofMembers 1 (by simp) (by simp)]
  simp [Json.required?, entries]

/-- A catalog is read back from its document. -/
theorem parse_render (catalog : Catalog) : parse catalog.render = .ok catalog := by
  have read : Json.parse? catalog.render = some catalog.toJson :=
    Json.parse?_render catalog.plain_toJson
  rw [parse, read, Option.bind_some, ofJson?_toJson]

end Catalog

end Interop
