import FacetedSearch.Slot.Document
import FacetedSearch.State

/-!
# State documents

A state document is an object with a member for each category to be set. Members are applied in
ascending order of their names. Names that are no category, or none that the deployment has, are
skipped, and so are the groups of geohash cells, which are always derived. The first member that
cannot be read ends the loading: what was applied before it stays, and the cells are not grouped.
-/

namespace FacetedSearch.State

/-- The category that a member of a document sets. -/
def memberCategory? (s : State) (name : String) : Option Category :=
  (Category.ofName? name).filter fun c => s.isAvailable c && c != .geohashGroups

/-- Set a category from its value in a document. -/
def applyMember (s : State) (c : Category) (value : Json) : Outcome :=
  match Slot.ofJson c value with
  | .ok slot => s.set c slot
  | .error e => .refused s e

/-- Apply members in the given order. `touched` says whether the cells have been set before. -/
def applyMembers (s : State) (touched : Bool) : List (String × Json) → Outcome
  | [] => .done (if touched then s.regroup else s)
  | (name, value) :: rest =>
    match s.memberCategory? name with
    | none => s.applyMembers touched rest
    | some c =>
      (s.applyMember c value).andThen fun s => s.applyMembers (touched || c == .geohashes) rest

/-- Apply a document over the current state. -/
def applyDocument (s : State) : Json → Outcome
  | .object members => s.applyMembers false (Json.sortedMembers members)
  | _ => .refused s .notAnObject

/-- The state of a document over the defaults. -/
def ofDocument (defaults : Defaults) (document : Json) : Except StateError State :=
  let outcome := (new defaults).applyDocument document
  match outcome.error with
  | some e => .error e
  | none => .ok outcome.state

end FacetedSearch.State
