import FacetedSearch.Decimal.Shortest

/-!
# Number text

The layout of a number around its digits: where the point stands, and whether an exponent is
written. A layout is a record of decisions. Two are in use: query text and reports write every
digit and never an exponent; state documents keep a point in every number and write very large and
very small numbers with an exponent.
-/

namespace FacetedSearch.Decimal

/-- The decisions of a layout. -/
structure Layout where
  /-- Which of two equally near decimals is taken. -/
  tie : Tie
  /-- A whole number ends in `.0`. -/
  wholePoint : Bool
  /-- A first digit at this power of ten is written without an exponent. -/
  positional : Int → Bool

/-- Every digit is written; whole numbers have no point. -/
def Layout.plain : Layout where
  tie := .up
  wholePoint := false
  positional _ := true

/-- Numbers from `0.00001` up to `10 ^ 16` are written without an exponent, always with a point. -/
def Layout.document : Layout where
  tie := .even
  wholePoint := true
  positional e := -5 ≤ e && e < 16

/-- A run of zeros. -/
def zeros (n : Nat) : String :=
  String.ofList (List.replicate n '0')

/-- Digits without an exponent, in front of `10 ^ k`. -/
def positionalText (wholePoint : Bool) (digits : List Char) (k : Int) : String :=
  let point := (digits.length : Int) + k
  if point ≤ 0 then "0." ++ zeros (-point).toNat ++ String.ofList digits
  else if 0 ≤ k then
    String.ofList digits ++ zeros k.toNat ++ (if wholePoint then ".0" else "")
  else String.ofList (digits.take point.toNat) ++ "." ++ String.ofList (digits.drop point.toNat)

/-- Digits with an exponent, which always has a sign; `e` is the power of ten of the first digit. -/
def scientificText (digits : List Char) (e : Int) : String :=
  let mantissa := match digits with
    | [] => ""
    | [only] => only.toString
    | first :: rest => first.toString ++ "." ++ String.ofList rest
  mantissa ++ "e" ++ (if e < 0 then "-" else "+") ++ toString e.natAbs

/-- Write a number. -/
def Layout.write (layout : Layout) (x : Binary64.Finite) : String :=
  let d := shortest layout.tie x
  let digits := (toString d.digits).toList
  let first := (digits.length : Int) + d.exponent - 1
  let text :=
    if x.isZero || layout.positional first then
      positionalText layout.wholePoint digits d.exponent
    else scientificText digits first
  (if x.negative then "-" else "") ++ text

/-- A number as it stands in query text: every digit, no exponent, no `.0`. -/
def Binary64.toText : Binary64 → String
  | finite x => Layout.plain.write x
  | infinite negative => if negative then "-inf" else "inf"
  | notANumber => "NaN"

end FacetedSearch.Decimal
