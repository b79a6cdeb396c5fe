import FacetedSearch.Decimal.Binary64

/-!
# The shortest decimal

A number is written with the fewest digits that read back as the same number, and of the decimals
with that many digits, the nearest one. The decimals that read back form an interval around the
number, which includes its ends when the significand is even. The digits come from the coarsest
grid of multiples of a power of ten that has a point in this interval.
-/

namespace FacetedSearch.Decimal

/-- What is taken of two decimals that are equally near. -/
inductive Tie where
  /-- The larger one. -/
  | up
  /-- The one with the even last digit. -/
  | even
  deriving DecidableEq, Repr

/-- A decimal `digits · 10 ^ exponent`. -/
structure Numeral where
  digits : Nat
  exponent : Int
  deriving DecidableEq, Repr

/-- A number, the ends of the interval that reads back as it, and the step of a decimal grid, all
in the same unit. -/
structure Bracket where
  low : Nat
  value : Nat
  high : Nat
  step : Nat
  /-- The ends belong to the interval. -/
  closed : Bool

namespace Bracket

/-- The bracket of `m · 2 ^ q` over the multiples of `10 ^ k`. Below a power of two the numbers
are half as far apart. -/
def make (m : Nat) (q k : Int) : Bracket :=
  let narrow := m = Nat.pow 2 52 ∧ -1074 < q
  let unit := Nat.pow 2 (q - 2).toNat * Nat.pow 10 (-k).toNat
  { low := (4 * m - if narrow then 1 else 2) * unit
    value := 4 * m * unit
    high := (4 * m + 2) * unit
    step := Nat.pow 10 k.toNat * Nat.pow 2 (2 - q).toNat
    closed := m % 2 = 0 }

/-- A multiple of the step lies in the interval. -/
def holds (b : Bracket) (n : Nat) : Bool :=
  if b.closed then b.low ≤ n * b.step && n * b.step ≤ b.high
  else b.low < n * b.step && n * b.step < b.high

/-- The nearest multiple of the step in the interval; only the two neighbours of the value have to
be looked at. -/
def nearest? (tie : Tie) (b : Bracket) : Option Nat :=
  let below := b.value / b.step
  let above := below + 1
  match b.holds below, b.holds above with
  | false, false => none
  | true, false => some below
  | false, true => some above
  | true, true =>
    let down := b.value - below * b.step
    let up := above * b.step - b.value
    if down < up then some below
    else if up < down then some above
    else match tie with
      | .up => some above
      | .even => if below % 2 = 0 then some below else some above

end Bracket

/-- Search the grids from `10 ^ k` downwards, at most `fuel` of them. -/
def searchGrids (tie : Tie) (m : Nat) (q : Int) : Nat → Int → Numeral
  | 0, k => ⟨0, k⟩
  | fuel + 1, k =>
    match (Bracket.make m q k).nearest? tie with
    | some n => ⟨n, k⟩
    | none => searchGrids tie m q fuel (k - 1)

/-- The shortest decimal of a number, without its sign. The first grid is coarser than the number
and its neighbours, and 17 digits always suffice. -/
def shortest (tie : Tie) (x : Binary64.Finite) : Numeral :=
  if x.isZero then ⟨0, 0⟩
  else
    let start := ((x.significand.log2 : Int) + x.exponent + 1) * 30103 / 100000 + 2
    searchGrids tie x.significand x.exponent 40 start

end FacetedSearch.Decimal
