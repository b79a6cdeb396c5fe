import FacetedSearch.Category.Table
import FacetedSearch.Slot

/-!
# Defaults

The slots that a search session starts from. A category without a default is not available in the
deployment: it can be neither set nor asked for.
-/

namespace FacetedSearch

open Decimal Category

/-- The default slot of each available category. -/
abbrev Defaults := Category.Table Slot

namespace Defaults

/-- A whole number as binary64; every number of at most 53 bits is one. -/
def wholeNumber (n : Int) : Binary64 :=
  .finite ((Binary64.Finite.ofInt? n).getD (.zero false))

/-- The first year of the year range. -/
def firstYear : Int := 1900

/-- The precision of the map. -/
def mapPrecision : Int := 9

/-- The order of the results. -/
def resultOrder : String := "dateUploaded+desc"

/-- The standard slot of a category, with the year range ending at `lastYear`. -/
def slotFor (lastYear : Int) : Category → Slot
  | documents | resourceMap | pubYear | dataYear | sortByReads => .flag false
  | east | west | north | south => .null
  | yearMin => .number (wholeNumber firstYear)
  | yearMax => .number (wholeNumber lastYear)
  | sortOrder => .text resultOrder
  | useGeohash => .flag true
  | geohashLevel => .number (wholeNumber mapPrecision)
  | geohashGroups => .groups []
  | formatType => .values [.described "METADATA" "science metadata" none]
  | exclude =>
    .exclusions
      [⟨"obsoletedBy", "*"⟩, ⟨"formatId", "*dataone.org/collections*"⟩,
        ⟨"formatId", "*dataone.org/portals*"⟩]
  | _ => .values []

/-- The standard defaults, with the year range ending at `lastYear`. -/
def forYear (lastYear : Int) : Defaults where
  get? c := some (slotFor lastYear c)

/-- Take categories away. -/
def without (d : Defaults) (categories : List Category) : Defaults :=
  categories.foldl Table.erase d

/-- Set the default of a category, which becomes available by it. -/
def withSlot (d : Defaults) (c : Category) (slot : Slot) : Except StateError Defaults := do
  checkShape c slot
  return d.insert c slot

end Defaults

end FacetedSearch
