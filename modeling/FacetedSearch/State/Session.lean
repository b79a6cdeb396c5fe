import FacetedSearch.State.Document

/-!
# Runs of a session

A session starts with every category at its default and makes one change after another. A change
that is refused is a step as well: it leaves what it had done by then, and the session goes on.
-/

namespace FacetedSearch

/-- Defaults that a deployment can be given: the standard ones, with categories taken away and
defaults set. -/
inductive Defaults.IsConfigured : Defaults → Prop where
  | forYear (lastYear : Int) : IsConfigured (forYear lastYear)
  | without {d : Defaults} (h : IsConfigured d) (categories : List Category) :
    IsConfigured (without d categories)
  | withSlot {d d' : Defaults} {c : Category} {slot : Slot} (h : IsConfigured d)
    (accepted : withSlot d c slot = .ok d') : IsConfigured d'

/-- A change that a session can be asked for. -/
inductive Change where
  | set (c : Category) (slot : Slot)
  | setValues (c : Category) (values : List FilterValue)
  | pushValue (c : Category) (value : FilterValue)
  | setFlag (c : Category) (on : Bool)
  | setYearRange (first last : Int)
  | setGeohashes (values : List FilterValue)
  | regroup
  | reset (c : Category)
  | resetGeohash
  | clear
  | remove (c : Category) (value : String)
  | applyDocument (document : Json)

namespace State

/-- Make a change. -/
def change (s : State) : Change → Outcome
  | .set c slot => s.set c slot
  | .setValues c values => s.setValues c values
  | .pushValue c value => s.pushValue c value
  | .setFlag c on => s.setFlag c on
  | .setYearRange first last => s.setYearRange first last
  | .setGeohashes values => s.setGeohashes values
  | .regroup => .done s.regroup
  | .reset c => .done (s.reset c)
  | .resetGeohash => .done s.resetGeohash
  | .clear => .done s.clear
  | .remove c value => .done (s.remove c value)
  | .applyDocument document => s.applyDocument document

/-- Make changes one after another, whether or not they are refused. -/
def run (s : State) (changes : List Change) : State :=
  changes.foldl (fun s c => (s.change c).state) s

@[simp] theorem run_nil (s : State) : s.run [] = s := rfl

@[simp] theorem run_cons (s : State) (c : Change) (changes : List Change) :
    s.run (c :: changes) = (s.change c).state.run changes := rfl

end State

end FacetedSearch
