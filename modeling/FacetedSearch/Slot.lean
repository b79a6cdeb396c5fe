import FacetedSearch.Category
import FacetedSearch.Decimal.Binary64
import FacetedSearch.FilterValue
import FacetedSearch.Geohash.Group

/-!
# Slots

A slot holds the value of one category. A category says which shapes of slot it takes: most take a
list of values, some a flag, a number, a text or a choice of two shapes.
-/

namespace FacetedSearch

open Decimal

/-- The value of a category. -/
inductive Slot where
  /-- No value. -/
  | null
  /-- A setting that is on or off. -/
  | flag (on : Bool)
  /-- A year, a coordinate or a precision. -/
  | number (x : Binary64)
  /-- One text. -/
  | text (s : String)
  /-- Selected values, in order. -/
  | values (values : List FilterValue)
  /-- What is taken out of the results. -/
  | exclusions (exclusions : List Exclusion)
  /-- Groups of geohash cells. -/
  | groups (groups : List Geohash.Group)
  deriving DecidableEq, Repr

namespace Slot

/-- The slot holds nothing that a query could use. A number always counts as something. -/
def isEmpty : Slot → Bool
  | null => true
  | flag on => !on
  | number _ => false
  | text s => s.isEmpty
  | values vs => vs.isEmpty
  | exclusions es => es.isEmpty
  | groups gs => gs.isEmpty

/-- Two slots hold the same value. The two zeros are the same number. -/
def sameValue : Slot → Slot → Bool
  | number x, number y => x.sameValue y
  | a, b => a == b

end Slot

/-- The shapes of slot that a category takes. -/
inductive Shape where
  | values
  | valuesOrText
  | idsOrFlag
  | flag
  | number
  | numberOrNull
  | text
  | exclusions
  | groups
  deriving DecidableEq, Repr

namespace Shape

/-- A slot has the shape. -/
def accepts : Shape → Slot → Bool
  | values, .values _ => true
  | valuesOrText, .values _ => true
  | valuesOrText, .text _ => true
  | idsOrFlag, .values _ => true
  | idsOrFlag, .flag _ => true
  | flag, .flag _ => true
  | number, .number _ => true
  | numberOrNull, .number _ => true
  | numberOrNull, .null => true
  | text, .text _ => true
  | exclusions, .exclusions _ => true
  | groups, .groups _ => true
  | _, _ => false

/-- The shape in words. -/
def describe : Shape → String
  | values => "a list of values"
  | valuesOrText => "a list of values or a string"
  | idsOrFlag => "a list of ids or a boolean"
  | flag => "a boolean"
  | number => "a number"
  | numberOrNull => "a number or null"
  | text => "a string"
  | exclusions => "a list of \x7bfield, value\x7d objects"
  | groups => "a list of geohash groups"

end Shape

/-- The shapes of slot that the category takes. -/
def Category.shape : Category → Shape
  | creator | spatial | identifier => .valuesOrText
  | documents | resourceMap => .idsOrFlag
  | pubYear | dataYear | sortByReads | useGeohash => .flag
  | yearMin | yearMax | geohashLevel => .number
  | east | west | north | south => .numberOrNull
  | sortOrder => .text
  | exclude => .exclusions
  | geohashGroups => .groups
  | fullText | taxon | geohashes | dataSource | username | rightsHolder | submitter
  | dataAttribute | semAnnotations | annotations | additionalCriteria | seriesId | idOnly
  | provFields | formatType => .values

/-- Why a state could not be changed or loaded. -/
inductive StateError where
  /-- A name is not the name of a category. -/
  | unknownCategory (name : String)
  /-- The deployment does not have the category. -/
  | unavailable (category : Category)
  /-- The category does not take a slot of this shape. -/
  | shape (category : Category)
  /-- The document is not an object. -/
  | notAnObject
  /-- A list of geohash groups does not hold groups. -/
  | malformedGroups
  deriving DecidableEq, Repr

/-- The error in words. -/
def StateError.message : StateError → String
  | unknownCategory name => "unknown filter category: " ++ name
  | unavailable c => "filter category is not available in this index: " ++ c.name
  | shape c => "invalid value for " ++ c.name ++ ": expected " ++ c.shape.describe
  | notAnObject => "filter state must be a JSON object"
  | malformedGroups => "failed to decode filter state"

/-- Refuse a slot whose shape the category does not take. -/
def checkShape (c : Category) (slot : Slot) : Except StateError Unit :=
  if c.shape.accepts slot then .ok () else .error (.shape c)

/-- Read the name of a category. -/
def Category.parse (name : String) : Except StateError Category :=
  match ofName? name with
  | some c => .ok c
  | none => .error (.unknownCategory name)

end FacetedSearch
