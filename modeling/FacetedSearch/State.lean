import FacetedSearch.Defaults

/-!
# The state of a search session

A session keeps the current slot of every available category, and the defaults it can go back to.
The groups of geohash cells are derived from the cells: whatever changes the cells groups them
anew, except for setting them directly with `set`.

A category is *changed* when its slot differs from the default, and *active* when it is changed and
holds something that a query could use.

Some changes may be refused. They give an `Outcome`: the state that they leave, and the error if
there is one. Nothing takes back what a change has done before it is refused.
-/

namespace FacetedSearch

open Decimal Category

/-- The current slots of a session, over its defaults. -/
structure State where
  defaults : Defaults
  slots : Category.Table Slot

namespace State

/-- A session in which every category has its default. -/
def new (defaults : Defaults) : State where
  defaults := defaults
  slots := defaults

/-! ## Looking at slots -/

/-- The slot of a category. -/
def get? (s : State) (c : Category) : Option Slot :=
  s.slots.get? c

/-- The deployment has the category. -/
def isAvailable (s : State) (c : Category) : Bool :=
  s.defaults.contains c

/-- The name is that of a category that the deployment has. -/
def isAvailableName (s : State) (name : String) : Bool :=
  (ofName? name).any s.isAvailable

/-- The values of a category, when it holds a list of values. -/
def values (s : State) (c : Category) : List FilterValue :=
  match s.get? c with
  | some (.values vs) => vs
  | _ => []

/-- The category holds a flag that is on. -/
def flag (s : State) (c : Category) : Bool :=
  s.get? c == some (.flag true)

/-- The number of a category. -/
def number? (s : State) (c : Category) : Option Binary64 :=
  match s.get? c with
  | some (.number x) => some x
  | _ => none

/-- The text of a category. -/
def text? (s : State) (c : Category) : Option String :=
  match s.get? c with
  | some (.text t) => some t
  | _ => none

/-- What is taken out of the results. -/
def exclusions (s : State) : List Exclusion :=
  match s.get? .exclude with
  | some (.exclusions es) => es
  | _ => []

/-- The geohash cells in view. -/
def cells (s : State) : List String :=
  (s.values .geohashes).map (·.text)

/-- The groups of the geohash cells. -/
def groups (s : State) : List Geohash.Group :=
  match s.get? .geohashGroups with
  | some (.groups gs) => gs
  | _ => []

/-- There are groups to be asked for. -/
def hasGroups (s : State) : Bool :=
  !s.groups.isEmpty

/-! ## Changing slots -/

/-- Put a slot in place without any check. -/
def put (s : State) (c : Category) (slot : Slot) : State :=
  { s with slots := s.slots.insert c slot }

@[simp] theorem defaults_put (s : State) (c : Category) (slot : Slot) :
    (s.put c slot).defaults = s.defaults := rfl

theorem get?_put (s : State) (c d : Category) (slot : Slot) :
    (s.put c slot).get? d = if d = c then some slot else s.get? d := rfl

/-- What is left of a session by a change that may be refused: the slots as they are then, and why
the change was refused. -/
structure Outcome where
  state : State
  error : Option StateError

namespace Outcome

/-- The change went through. -/
def done (s : State) : Outcome where
  state := s
  error := none

/-- The change was refused. What it had put in place before stays. -/
def refused (s : State) (e : StateError) : Outcome where
  state := s
  error := some e

/-- Go on with the state that is left, unless the change has been refused. -/
def andThen (o : Outcome) (next : State → Outcome) : Outcome :=
  match o.error with
  | none => next o.state
  | some _ => o

section Api

variable (s : State) (e : StateError) (next : State → Outcome)

@[simp] theorem state_done : (done s).state = s := rfl

@[simp] theorem error_done : (done s).error = none := rfl

@[simp] theorem state_refused : (refused s e).state = s := rfl

@[simp] theorem error_refused : (refused s e).error = some e := rfl

@[simp] theorem done_andThen : (done s).andThen next = next s := rfl

@[simp] theorem refused_andThen : (refused s e).andThen next = refused s e := rfl

end Api

end Outcome

/-- Refuse a category that the deployment does not have. -/
def ensureAvailable (s : State) (c : Category) : Outcome :=
  if s.isAvailable c then .done s else .refused s (.unavailable c)

/-- Refuse a slot of a shape that the category does not take. -/
def ensureShape (s : State) (c : Category) (slot : Slot) : Outcome :=
  match checkShape c slot with
  | .ok () => .done s
  | .error e => .refused s e

/-- Set the slot of a category. -/
def set (s : State) (c : Category) (slot : Slot) : Outcome :=
  (s.ensureAvailable c).andThen fun s =>
    (s.ensureShape c slot).andThen fun s => .done (s.put c slot)

/-- Set the values of a category. -/
def setValues (s : State) (c : Category) (values : List FilterValue) : Outcome :=
  s.set c (.values values)

/-- Add a value to a category; a slot of another shape becomes a list of this value. -/
def pushValue (s : State) (c : Category) (value : FilterValue) : Outcome :=
  (s.ensureAvailable c).andThen fun s =>
    match s.get? c with
    | some (.values vs) => .done (s.put c (.values (vs ++ [value])))
    | _ => s.set c (.values [value])

/-- Set a flag. -/
def setFlag (s : State) (c : Category) (on : Bool) : Outcome :=
  s.set c (.flag on)

/-- Set the first and the last year, one after the other. -/
def setYearRange (s : State) (first last : Int) : Outcome :=
  (s.set .yearMin (.number (Defaults.wholeNumber first))).andThen fun s =>
    s.set .yearMax (.number (Defaults.wholeNumber last))

/-- Group the geohash cells anew. -/
def regroup (s : State) : State :=
  if s.isAvailable .geohashGroups then
    s.put .geohashGroups (.groups (Geohash.groupCells s.cells))
  else s

/-- Set the geohash cells and group them. -/
def setGeohashes (s : State) (values : List FilterValue) : Outcome :=
  (s.setValues .geohashes values).andThen fun s => .done s.regroup

/-- Go back to the default of a category. -/
def reset (s : State) (c : Category) : State :=
  match s.defaults.get? c with
  | some slot => s.put c slot
  | none => s

/-- Go back to the defaults of the geohash cells, their precision and their groups. -/
def resetGeohash (s : State) : State :=
  ((s.reset .geohashes).reset .geohashLevel).reset .geohashGroups

/-- Go back to every default. -/
def clear (s : State) : State :=
  { s with slots := s.defaults }

/-! ## Filters -/

/-- The slot of the category differs from its default. -/
def isChanged (s : State) (c : Category) : Bool :=
  match s.get? c, s.defaults.get? c with
  | some current, some default => !current.sameValue default
  | _, _ => false

/-- The category is changed and holds something that a query could use. -/
def isActive (s : State) (c : Category) : Bool :=
  s.isChanged c && (s.get? c).any (!·.isEmpty)

/-- Categories that never count as filters. -/
def settingsOnly : List Category :=
  [.sortOrder, .provFields]

/-- The changed categories, in order. The categories of the map count only while the map filter is
on. -/
def currentFilters (s : State) : List Category :=
  let useMap := s.flag .useGeohash
  s.slots.categories.filter fun c =>
    s.isChanged c && !settingsOnly.contains c && (useMap || !c.isSpatial)

/-- The number of filters. -/
def filterCount (s : State) : Nat :=
  s.currentFilters.length

/-! ## Removing a filter -/

/-- Remove a flag of the year range. The range goes back to its default, unless the other flag is
still active. -/
def removeYearFlag (s : State) (c other : Category) : State :=
  let keepRange := s.isActive other
  let s := s.reset c
  if keepRange then s else (s.reset .yearMin).reset .yearMax

/-- Remove the items with the given value from a list; any other slot goes back to its default. -/
def removeItems (s : State) (c : Category) (value : String) : State :=
  match s.get? c with
  | some (.values vs) => s.put c (.values (vs.filter fun v => v.text != value))
  | some (.exclusions es) => s.put c (.exclusions (es.filter fun e => e.value != value))
  | _ => s.reset c

/-- Remove a value from a category. -/
def remove (s : State) (c : Category) (value : String) : State :=
  if s.isAvailable c then
    match c with
    | .pubYear => s.removeYearFlag .pubYear .dataYear
    | .dataYear => s.removeYearFlag .dataYear .pubYear
    | .geohashes => (s.removeItems .geohashes value).regroup
    | c => s.removeItems c value
  else s

end State

end FacetedSearch
