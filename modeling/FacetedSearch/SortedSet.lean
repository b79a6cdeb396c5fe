/-!
# Lists read as sets

A list read as a set is written in one way only: ascending, each member once.
-/

namespace FacetedSearch

variable {α : Type} [LT α] [DecidableLT α]

/-- Add a member to an ascending list, unless it is there. -/
def insertSorted (a : α) : List α → List α
  | [] => [a]
  | b :: rest =>
    if a < b then a :: b :: rest
    else if b < a then b :: insertSorted a rest
    else b :: rest

/-- The distinct members of a list in ascending order. -/
def sortedSet (xs : List α) : List α :=
  xs.foldr insertSorted []

end FacetedSearch
