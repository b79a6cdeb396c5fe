/-!
# Filter values

What a user picks for a filter: a bare text, or a text together with the words an interface shows
for it. Only the text itself goes into a query. An exclusion is a field and a value whose matches
are taken out of the results.
-/

namespace FacetedSearch

/-- One selected value. -/
inductive FilterValue where
  /-- A bare value, such as one typed into a search box. -/
  | plain (text : String)
  /-- A value with a label and, possibly, a description. -/
  | described (text : String) (label : String) (description : Option String)
  deriving DecidableEq, Repr

namespace FilterValue

/-- The text that goes into a query. -/
def text : FilterValue → String
  | plain text => text
  | described text _ _ => text

/-- The value carries a label. -/
def isDescribed : FilterValue → Bool
  | plain _ => false
  | described .. => true

@[simp] theorem text_plain (t : String) : (plain t).text = t := rfl

@[simp] theorem text_described (t l : String) (d : Option String) :
    (described t l d).text = t := rfl

end FilterValue

/-- Documents whose `field` matches `value` are taken out of the results. -/
structure Exclusion where
  field : String
  value : String
  deriving DecidableEq, Repr

end FacetedSearch
