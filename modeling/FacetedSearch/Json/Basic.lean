import FacetedSearch.Decimal.Binary64
import FacetedSearch.SortedSet

/-!
# JSON values

The values of JSON documents. Whole numbers that fit in 64 bits stay whole numbers; every other
number is a finite binary64. An object is a list of members; when a name occurs twice, the last
member of that name counts, and `sortedMembers` is the object with each name once, in ascending
order.
-/

namespace FacetedSearch

open Decimal

namespace Json

/-- A number of a document. -/
inductive Number where
  /-- A whole number, from `-2 ^ 63` to `2 ^ 64 - 1` when it comes from a document. -/
  | whole (n : Int)
  /-- Any other number. -/
  | real (x : Binary64.Finite)
  deriving DecidableEq, Repr

/-- The nearest binary64; none when the number is out of its range. -/
def Number.toBinary64? : Number → Option Binary64
  | whole n => (Binary64.Finite.ofInt? n).map .finite
  | real x => some (.finite x)

end Json

/-- A JSON value. -/
inductive Json where
  | null
  | bool (b : Bool)
  | number (n : Json.Number)
  | string (s : String)
  | array (items : List Json)
  | object (members : List (String × Json))
  deriving Repr

namespace Json

/-- The value of a name: that of the last member with it. -/
def member? (name : String) : List (String × Json) → Option Json
  | [] => none
  | (n, value) :: rest =>
    match member? name rest with
    | some later => some later
    | none => if n = name then some value else none

/-- Each name once with its value, in ascending order of names. -/
def sortedMembers (members : List (String × Json)) : List (String × Json) :=
  (sortedSet (members.map (·.1))).filterMap fun name =>
    (member? name members).map (name, ·)

/-- The text of a string value. -/
def asString? : Json → Option String
  | string s => some s
  | _ => none

/-- The truth value of a Boolean. -/
def asBool? : Json → Option Bool
  | bool b => some b
  | _ => none

/-- The items of an array. -/
def asArray? : Json → Option (List Json)
  | array items => some items
  | _ => none

/-- A whole number that is not negative and fits in 64 bits. -/
def asUnsigned? : Json → Option Nat
  | number (.whole n) => if 0 ≤ n ∧ n.toNat < Nat.pow 2 64 then some n.toNat else none
  | _ => none

/-- The texts of an array of strings. -/
def asStrings? (j : Json) : Option (List String) := do
  (← j.asArray?).mapM asString?

end Json

end FacetedSearch
