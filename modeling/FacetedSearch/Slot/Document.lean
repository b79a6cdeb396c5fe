import FacetedSearch.Json.Basic
import FacetedSearch.Slot

/-!
# Slots in documents

How slots are spelled in a state document, in both directions. Reading is lenient inside lists of
values and exclusions, where an item that cannot be read is dropped; a list of geohash groups is
read as a whole or not at all.
-/

namespace FacetedSearch

/-- An optional text: absent and null are no text, and anything else has to be a string. -/
def Json.optionalText? : Option Json → Option (Option String)
  | none => some none
  | some .null => some none
  | some (.string s) => some (some s)
  | some _ => none

namespace FilterValue

/-- Read a value: a string, or an object with its text, its label and its description. The label
may be absent but not null. -/
def ofJson? : Json → Option FilterValue
  | .string s => some (.plain s)
  | .object members => do
    let text ← (← Json.member? "value" members).asString?
    let label ← match Json.member? "label" members with
      | none => some ""
      | some label => label.asString?
    let description ← Json.optionalText? (Json.member? "description" members)
    return .described text label description
  | _ => none

/-- Read the values of a list; items that are no values are dropped. -/
def listOfJson (items : List Json) : List FilterValue :=
  items.filterMap ofJson?

/-- Write a value. -/
def toJson : FilterValue → Json
  | plain text => .string text
  | described text label description =>
    .object [("value", .string text), ("label", .string label),
      ("description", match description with | some d => .string d | none => .null)]

end FilterValue

namespace Exclusion

/-- Read an exclusion: an object with its field and its value, or a list of the two. -/
def ofJson? : Json → Option Exclusion
  | .object members => do
    let field ← (← Json.member? "field" members).asString?
    let value ← (← Json.member? "value" members).asString?
    return { field, value }
  | .array [.string field, .string value] => some { field, value }
  | _ => none

/-- Write an exclusion. -/
def toJson (e : Exclusion) : Json :=
  .object [("field", .string e.field), ("value", .string e.value)]

end Exclusion

namespace Geohash.Group

/-- Read a group from its level, whether it is complete, and its cells. -/
def ofParts? (level complete cells : Json) : Option Group := do
  let level ← level.asUnsigned?
  let complete ← complete.asBool?
  let cells ← cells.asStrings?
  return { level, complete, cells }

/-- Read a group: an object with its parts, or a list of the three. -/
def ofJson? : Json → Option Group
  | .object members => do
    ofParts? (← Json.member? "level" members) (← Json.member? "complete" members)
      (← Json.member? "hashes" members)
  | .array [level, complete, cells] => ofParts? level complete cells
  | _ => none

/-- Write a group. -/
def toJson (g : Group) : Json :=
  .object [("level", .number (.whole g.level)), ("complete", .bool g.complete),
    ("hashes", .array (g.cells.map .string))]

end Geohash.Group

namespace Slot

/-- Read a list in the shape that the category takes. -/
def ofItems (c : Category) (items : List Json) : Except StateError Slot :=
  match c with
  | .exclude => .ok (.exclusions (items.filterMap Exclusion.ofJson?))
  | .geohashGroups =>
    match items.mapM Geohash.Group.ofJson? with
    | some gs => .ok (.groups gs)
    | none => .error .malformedGroups
  | _ => .ok (.values (FilterValue.listOfJson items))

/-- Read a value of any shape; an object is the value of no category. -/
def ofValue (c : Category) : Json → Except StateError Slot
  | .null => .ok .null
  | .bool b => .ok (.flag b)
  | .number n =>
    match n.toBinary64? with
    | some x => .ok (.number x)
    | none => .ok .null
  | .string s => .ok (.text s)
  | .array items => ofItems c items
  | .object _ => .error (.shape c)

/-- Read the slot of a category. -/
def ofJson (c : Category) (j : Json) : Except StateError Slot := do
  let slot ← ofValue c j
  checkShape c slot
  return slot

/-- Write a slot. A number that is not finite is written as null. -/
def toJson : Slot → Json
  | null => .null
  | flag on => .bool on
  | number (.finite x) => .number (.real x)
  | number _ => .null
  | text s => .string s
  | values vs => .array (vs.map FilterValue.toJson)
  | exclusions es => .array (es.map Exclusion.toJson)
  | groups gs => .array (gs.map Geohash.Group.toJson)

end Slot

end FacetedSearch
