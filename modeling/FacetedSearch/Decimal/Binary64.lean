/-!
# Numbers in binary64

The numbers of the binary floating-point format with 53 bits of precision. A finite number is kept
as a sign, a significand and a power of two. Zero has two signs. A finite number has one canonical
form, so two of them with different parts are different, with the two zeros as the only ones of
equal value. Beside the finite numbers there are two infinities and a value that is no number.

Reading rounds to the nearest finite number, and a tie goes to the even significand. A value that
would need a larger exponent is refused. Products and quotients are rounded in the same way.
-/

namespace FacetedSearch.Decimal

/-- The significand has 53 bits, or fewer at the least exponent, and the exponent is in range. -/
def IsCanonical (significand : Nat) (exponent : Int) : Prop :=
  significand < Nat.pow 2 53 ∧ -1074 ≤ exponent ∧ exponent ≤ 971 ∧
    (Nat.pow 2 52 ≤ significand ∨ exponent = -1074)

instance (m : Nat) (q : Int) : Decidable (IsCanonical m q) :=
  inferInstanceAs (Decidable (_ ∧ _ ∧ _ ∧ _))

/-- A finite number `± significand · 2 ^ exponent`. -/
structure Binary64.Finite where
  negative : Bool
  significand : Nat
  exponent : Int
  canonical : IsCanonical significand exponent
  deriving DecidableEq, Repr

/-- Divide and round to the nearest whole number; a tie goes to the even one. -/
def roundDiv (num den : Nat) : Nat :=
  let floor := num / den
  let twice := 2 * (num % den)
  if den < twice ∨ (den = twice ∧ floor % 2 = 1) then floor + 1 else floor

/-- The fraction `num / (den · 2 ^ exponent)`, as numerator and denominator. -/
def scaleDown (num den : Nat) (exponent : Int) : Nat × Nat :=
  (num * Nat.pow 2 (-exponent).toNat, den * Nat.pow 2 exponent.toNat)

/-- The exponent at which the significand of `num / den` has 53 bits, but not less than the least
exponent. -/
def exponentFor (num den : Nat) : Int :=
  let low : Int := (num.log2 : Int) - den.log2 - 53
  let (n, d) := scaleDown num den low
  max (if n / d < Nat.pow 2 53 then low else low + 1) (-1074)

namespace Binary64.Finite

/-- Zero of either sign. -/
def zero (negative : Bool) : Finite where
  negative := negative
  significand := 0
  exponent := -1074
  canonical := by decide

/-- The number with the given parts; none when they are not canonical. -/
def ofParts? (negative : Bool) (significand : Nat) (exponent : Int) : Option Finite :=
  if h : IsCanonical significand exponent then some ⟨negative, significand, exponent, h⟩
  else none

/-- The number nearest to `± num / den`; none when it is out of range. -/
def ofRatio? (negative : Bool) (num den : Nat) : Option Finite :=
  if num = 0 then some (zero negative)
  else
    let q := exponentFor num den
    let (n, d) := scaleDown num den q
    let m := roundDiv n d
    if m = Nat.pow 2 53 then ofParts? negative (Nat.pow 2 52) (q + 1)
    else ofParts? negative m q

/-- The number nearest to `± digits · 10 ^ exponent`; none when it is out of range. The two bounds
on the exponent keep the powers small: beyond them the value is out of range or rounds to zero. -/
def ofDecimal? (negative : Bool) (digits : Nat) (exponent : Int) : Option Finite :=
  if digits = 0 ∨ exponent + (digits.log2 / 3 + 1 : Nat) < -330 then some (zero negative)
  else if 310 < exponent then none
  else ofRatio? negative (digits * Nat.pow 10 exponent.toNat) (Nat.pow 10 (-exponent).toNat)

/-- The number nearest to `± num / den · 2 ^ exponent`; none when it is out of range. -/
def ofScaled? (negative : Bool) (num den : Nat) (exponent : Int) : Option Finite :=
  let (n, d) := scaleDown num den (-exponent)
  ofRatio? negative n d

/-- The number nearest to a whole number; none when it is out of range. -/
def ofInt? (n : Int) : Option Finite :=
  ofRatio? (n < 0) n.natAbs 1

/-- The number is zero, of either sign. -/
def isZero (x : Finite) : Bool :=
  x.significand == 0

/-- Two numbers have the same value: they are equal, or both are zero. -/
def sameValue (x y : Finite) : Bool :=
  x == y || (x.isZero && y.isZero)

/-- The product, rounded; none when it is out of range. -/
def mul? (x y : Finite) : Option Finite :=
  ofScaled? (x.negative != y.negative) (x.significand * y.significand) 1 (x.exponent + y.exponent)

/-- The quotient, rounded; none when it is out of range or the divisor is zero. -/
def div? (x y : Finite) : Option Finite :=
  if y.isZero then none
  else ofScaled? (x.negative != y.negative) x.significand y.significand (x.exponent - y.exponent)

/-- The number nearest to a power of ten; none when it is out of range. -/
def tenPow? (n : Nat) : Option Finite :=
  ofRatio? false (Nat.pow 10 n) 1

/-- The greatest power of ten in range. -/
def maxTenPow : Nat := 308

/-- Multiply by a power of ten, or divide by one when the exponent is negative. A power that is out
of range is divided by in steps, each of which rounds. -/
def scaleByTen? (x : Finite) (exponent : Int) : Option Finite :=
  if exponent.natAbs ≤ maxTenPow then do
    let power ← tenPow? exponent.natAbs
    if 0 ≤ exponent then x.mul? power else x.div? power
  else if x.isZero then some x
  else if 0 < exponent then none
  else do
    let quotient ← x.div? (← tenPow? maxTenPow)
    quotient.scaleByTen? (exponent + maxTenPow)
termination_by exponent.natAbs
decreasing_by simp only [maxTenPow] at *; omega

end Binary64.Finite

/-- A number of the format. -/
inductive Binary64 where
  /-- A finite number. -/
  | finite (x : Binary64.Finite)
  /-- An infinity. -/
  | infinite (negative : Bool)
  /-- What is no number, such as zero divided by zero. -/
  | notANumber
  deriving DecidableEq, Repr

/-- Two numbers have the same value. What is not a number differs from everything, itself
included. -/
def Binary64.sameValue : Binary64 → Binary64 → Bool
  | finite x, finite y => x.sameValue y
  | infinite xNegative, infinite yNegative => xNegative == yNegative
  | _, _ => false

end FacetedSearch.Decimal
