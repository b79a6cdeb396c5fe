import FacetedSearch.Decimal.Binary64

/-!
# TOML values

The values of a settings file. A date or time is kept as its text in normal form. The entries of a
table stand in the order of their first mention, and a name occurs once.
-/

namespace FacetedSearch.Toml

open Decimal

/-- A value. -/
inductive Value where
  | string (s : String)
  | integer (n : Int)
  | real (x : Binary64)
  | boolean (b : Bool)
  /-- A date, a time or both. -/
  | dateTime (text : String)
  | array (items : List Value)
  | table (entries : List (String × Value))
  deriving Repr

/-- The value of a name. -/
def valueOf? (name : String) (entries : List (String × Value)) : Option Value :=
  entries.lookup name

namespace Value

/-- The text of a string. -/
def asString? : Value → Option String
  | string s => some s
  | _ => none

/-- The truth value of a Boolean. -/
def asBoolean? : Value → Option Bool
  | boolean b => some b
  | _ => none

/-- A whole number that is not negative and fits in 64 bits. -/
def asUnsigned? : Value → Option Nat
  | integer n => if 0 ≤ n ∧ n.toNat < Nat.pow 2 64 then some n.toNat else none
  | _ => none

end Value

end FacetedSearch.Toml
