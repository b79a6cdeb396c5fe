import FacetedSearch.Clause.Escape
import FacetedSearch.Clause.Quoting
import FacetedSearch.FilterValue
import FacetedSearch.Text.Blank
import FacetedSearch.Text.Percent

/-!
# Clauses

A clause asks that a field match a value, `field:value`, or one of several values,
`field:(a OR b)`. Every value in a clause has been trimmed, encoded for the way the query travels,
escaped, and put in quotes or wildcards where the options ask for it. A blank value is dropped,
and a clause of dropped values is the empty text.
-/

namespace FacetedSearch

/-- How the members of a group combine. -/
inductive Operator where
  /-- One member has to match. -/
  | or
  /-- Every member has to match. -/
  | and
  deriving DecidableEq, Repr

namespace Operator

/-- The operator as the query language spells it. -/
def name : Operator → String
  | or => "OR"
  | and => "AND"

/-- The operator between two members. -/
def separator : Operator → String
  | or => " OR "
  | and => " AND "

end Operator

/-- How values are written for the way a query travels. -/
inductive Encoding where
  /-- In a URL: values are percent-encoded, and a quote is `%22`. -/
  | url
  /-- In the body of a request: values and quotes stand as they are. -/
  | raw
  deriving DecidableEq, Repr

namespace Encoding

/-- The name of the encoding in settings. -/
def name : Encoding → String
  | url => "url"
  | raw => "raw"

/-- Read the name of an encoding. -/
def ofName? : String → Option Encoding
  | "url" => some url
  | "raw" => some raw
  | _ => none

/-- The quote mark. -/
def quote : Encoding → String
  | url => "%22"
  | raw => "\""

/-- Encode a value. -/
def encode : Encoding → String → String
  | url, value => Text.percentEncode value
  | raw, value => value

/-- Encode a value and escape the query syntax in it. -/
def encodeEscaped (encoding : Encoding) (value : String) : String :=
  Clause.escape (encoding.encode value)

@[simp] theorem ofName?_name (e : Encoding) : ofName? e.name = some e := by
  cases e <;> rfl

end Encoding

/-- How the values of a clause are written and combined. -/
structure ClauseOptions where
  /-- What stands between values, and between the fields of a clause over several fields. -/
  operator : Operator := .or
  /-- Put wildcards around values that are not quoted. -/
  subtext : Bool := false
  /-- Quote every value. -/
  forceQuotes : Bool := false
  /-- How values are encoded. -/
  encoding : Encoding := .url
  deriving DecidableEq, Repr

namespace Clause

/-- The members of a group: nothing, the only member bare, or all of them in parentheses. -/
def group (operator : Operator) : List String → String
  | [] => ""
  | [only] => only
  | members => "(" ++ operator.separator.intercalate members ++ ")"

/-- Write one value, or nothing when it is blank. -/
def formatValue (options : ClauseOptions) (value : String) : Option String :=
  let value := Text.trim value
  if value.isEmpty then none
  else
    let term := options.encoding.encodeEscaped value
    if options.forceQuotes || needsQuotes value then
      some (options.encoding.quote ++ term ++ options.encoding.quote)
    else if options.subtext then some ("*" ++ term ++ "*")
    else some term

/-- Write the values that are not blank. -/
def formatValues (options : ClauseOptions) (values : List FilterValue) : List String :=
  values.filterMap fun value => formatValue options value.text

/-- `field:value`, or nothing when there is no value. -/
def qualified (field value : String) : String :=
  if value.isEmpty then "" else field ++ ":" ++ value

/-- The options for a clause over several fields: quotes are forced when `id` is among them. -/
def manyFieldOptions (fields : List String) (options : ClauseOptions) : ClauseOptions :=
  if fields.contains "id" then { options with forceQuotes := true } else options

/-- The values in one field: `field:value` or `field:(a OR b)`, joined by the operator of the
options. -/
def oneField (options : ClauseOptions) (field : String) (values : List FilterValue) : String :=
  qualified field (group options.operator (formatValues options values))

/-- The values in several fields: `(f:value OR g:value)`. The values form one group, joined by
`OR`, which is repeated for each field; the operator of the options joins the fields. -/
def manyFields (options : ClauseOptions) (fields : List String) (values : List FilterValue) :
    String :=
  let value := group .or (formatValues (manyFieldOptions fields options) values)
  if value.isEmpty then ""
  else "(" ++ options.operator.separator.intercalate (fields.map (qualified · value)) ++ ")"

/-- The values in the given fields: one field is asked directly, several are combined, and without
a field there is no clause. -/
def ofFields (options : ClauseOptions) (fields : List String) (values : List FilterValue) :
    String :=
  match fields with
  | [] => ""
  | [field] => oneField options field values
  | fields => manyFields options fields values

end Clause

end FacetedSearch
