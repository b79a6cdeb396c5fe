import FacetedSearch.Text.Digit
import FacetedSearch.Toml.Value

/-!
# Bare values in TOML

Values that stand without quotes or brackets: truth values, numbers, dates and times. Digits may be
grouped by single underscores. Whole numbers may be hexadecimal, octal or binary; one that does not
fit in 128 bits is refused, as is a floating-point number out of range.
-/

namespace FacetedSearch.Toml

open Decimal Text

/-- A character of a bare value. -/
def isBareChar (c : Char) : Bool :=
  isAsciiDigit c || isAsciiLetter c || c == '+' || c == '-' || c == '_' || c == '.' || c == ':'

/-! ## Numbers -/

/-- The digits without the underscores between them. -/
def groupedDigits? (isDigit : Char → Bool) (s : List Char) : Option (List Char) :=
  let parts := s.splitOn '_'
  if parts.all fun part => !part.isEmpty && part.all isDigit then some parts.flatten else none

/-- The number that digits spell in a base. -/
def baseNumber (base : Nat) (digits : List Char) : Nat :=
  digits.foldl (fun n c => base * n + (hexDigit? c).getD 0) 0

/-- A whole number in a base up to 16. -/
def basedInteger? (base : Nat) (s : List Char) : Option Nat :=
  (groupedDigits? (fun c => (hexDigit? c).any (· < base)) s).map (baseNumber base)

/-- The sign in front of a number, and what follows it. -/
def spanSign : List Char → Bool × List Char
  | '-' :: s => (true, s)
  | '+' :: s => (false, s)
  | s => (false, s)

/-- Decimal digits that do not start with a needless zero. -/
def decimalDigits? (s : List Char) : Option (List Char) :=
  match groupedDigits? isAsciiDigit s with
  | some ['0'] => some ['0']
  | some ('0' :: _) => none
  | digits => digits

/-- A whole number that fits in 128 bits, with or without a sign. -/
def integerValue? (n : Int) : Option Value :=
  let fits := if n < 0 then n.natAbs ≤ Nat.pow 2 127 else n.natAbs < Nat.pow 2 128
  if fits then some (.integer n) else none

/-- Part of a number before the exponent mark, and the exponent if there is one. -/
def spanExponent (s : List Char) : List Char × Option (List Char) :=
  let isMark := fun c => c == 'e' || c == 'E'
  match s.dropWhile (!isMark ·) with
  | [] => (s, none)
  | _ :: exponent => (s.takeWhile (!isMark ·), some exponent)

/-- The power of ten of an exponent. -/
def exponentValue? : Option (List Char) → Option Int
  | none => some 0
  | some s => do
    let (negative, digits) := spanSign s
    let digits ← groupedDigits? isAsciiDigit digits
    let e : Int := digitsValue digits
    return if negative then -e else e

/-- The digits behind a point. -/
def fractionDigits? : List Char → Option (List Char)
  | [] => some []
  | _ :: fraction => groupedDigits? isAsciiDigit fraction

/-- A floating-point number without its sign. -/
def realValue? (negative : Bool) (s : List Char) : Option Value := do
  let (mantissa, exponent) := spanExponent s
  let whole ← decimalDigits? (mantissa.takeWhile (· != '.'))
  let fraction ← fractionDigits? (mantissa.dropWhile (· != '.'))
  let e ← exponentValue? exponent
  let digits := digitsValue (whole ++ fraction)
  let x ← Binary64.Finite.ofDecimal? negative digits (e - fraction.length)
  return .real (.finite x)

/-- A number without its sign. -/
def unsignedValue? (negative : Bool) (s : List Char) : Option Value :=
  if s = "inf".toList then some (.real (.infinite negative))
  else if s = "nan".toList then some (.real .notANumber)
  else if s.any fun c => c == '.' || c == 'e' || c == 'E' then realValue? negative s
  else do
    let n : Int := digitsValue (← decimalDigits? s)
    integerValue? (if negative then -n else n)

/-- A number. A number in another base than ten has no sign. -/
def numberValue? : List Char → Option Value
  | '0' :: 'x' :: s => do integerValue? (← basedInteger? 16 s)
  | '0' :: 'o' :: s => do integerValue? (← basedInteger? 8 s)
  | '0' :: 'b' :: s => do integerValue? (← basedInteger? 2 s)
  | s =>
    let (negative, rest) := spanSign s
    unsignedValue? negative rest

/-! ## Dates and times -/

/-- A number of exactly two digits, at most `most`. -/
def twoDigits? (most : Nat) (a b : Char) : Option Nat :=
  if isAsciiDigit a && isAsciiDigit b && digitsValue [a, b] ≤ most then
    some (digitsValue [a, b])
  else none

/-- The number of days of a month. -/
def daysIn (year month : Nat) : Nat :=
  if month = 2 then
    if year % 4 = 0 ∧ (year % 100 ≠ 0 ∨ year % 400 = 0) then 29 else 28
  else if month ∈ [4, 6, 9, 11] then 30
  else 31

/-- Read a date; give back its text and what follows. -/
def readDate? : List Char → Option (List Char × List Char)
  | a :: b :: c :: d :: '-' :: e :: f :: '-' :: g :: h :: rest => do
    if !([a, b, c, d].all isAsciiDigit) then none
    let month ← twoDigits? 12 e f
    let day ← twoDigits? (daysIn (digitsValue [a, b, c, d]) month) g h
    if month = 0 ∨ day = 0 then none
    return ([a, b, c, d, '-', e, f, '-', g, h], rest)
  | _ => none

/-- The digits of a fraction of a second, as far as they count: nine of them, without zeros at the
end. -/
def secondFraction (digits : List Char) : List Char :=
  ((digits.take 9).reverse.dropWhile (· == '0')).reverse

/-- Read the fraction of a second, when there is one. -/
def readSecondFraction? : List Char → Option (List Char × List Char)
  | '.' :: s =>
    let (digits, rest) := spanDigits s
    if digits.isEmpty then none
    else
      let kept := secondFraction digits
      some (if kept.isEmpty then [] else '.' :: kept, rest)
  | s => some ([], s)

/-- Read the seconds of a time, which may be left out. -/
def readSeconds? : List Char → Option (List Char × List Char)
  | ':' :: a :: b :: rest => do
    let _ ← twoDigits? 60 a b
    let (fraction, rest) ← readSecondFraction? rest
    return (':' :: a :: b :: fraction, rest)
  | ':' :: _ => none
  | s => some (":00".toList, s)

/-- Read a time of day; give back its text and what follows. -/
def readTime? : List Char → Option (List Char × List Char)
  | a :: b :: ':' :: c :: d :: rest => do
    let _ ← twoDigits? 23 a b
    let _ ← twoDigits? 59 c d
    let (seconds, rest) ← readSeconds? rest
    return (a :: b :: ':' :: c :: d :: seconds, rest)
  | _ => none

/-- The text of an offset from universal time. An offset of nothing has no direction: it is written
with a plus sign. -/
def offsetText (sign : Char) (hours minutes : List Char) : List Char :=
  let sign := if digitsValue hours = 0 ∧ digitsValue minutes = 0 then '+' else sign
  sign :: hours ++ ':' :: minutes

/-- Read the offset of a time from universal time, which may be left out; nothing may follow. It is
less than a day. -/
def offsetText? : List Char → Option (List Char)
  | [] => some []
  | ['Z'] => some ['Z']
  | ['z'] => some ['Z']
  | [sign, a, b, ':', c, d] => do
    if sign != '+' && sign != '-' then none
    let _ ← twoDigits? 23 a b
    let _ ← twoDigits? 59 c d
    return offsetText sign [a, b] [c, d]
  | _ => none

/-- A date, a time, or a date and a time with or without an offset. -/
def dateTimeText? (s : List Char) : Option (List Char) :=
  match readDate? s with
  | some (date, []) => some date
  | some (date, mark :: rest) => do
    if mark != 'T' && mark != 't' && mark != ' ' then none
    let (time, rest) ← readTime? rest
    let offset ← offsetText? rest
    return date ++ 'T' :: time ++ offset
  | none =>
    match readTime? s with
    | some (time, []) => some time
    | _ => none

/-- The text looks like a date or a time: a dash or a colon stands behind some digits. -/
def looksLikeDate (s : List Char) : Bool :=
  match spanDigits s with
  | (_ :: _, '-' :: _) => true
  | (_ :: _, ':' :: _) => true
  | _ => false

/-- The value that a bare text stands for. -/
def bareValue? (s : List Char) : Option Value :=
  if s = "true".toList then some (.boolean true)
  else if s = "false".toList then some (.boolean false)
  else if looksLikeDate s then (dateTimeText? s).map fun text => .dateTime (String.ofList text)
  else numberValue? s

/-- A date is followed by a blank and a digit: the time belongs to the same value. -/
def timeFollows (token rest : List Char) : Bool :=
  token.length == 10 && (readDate? token).isSome &&
    match rest with
    | ' ' :: c :: _ => isAsciiDigit c
    | _ => false

/-- Read a bare value. -/
def readBare? (s : List Char) : Option (Value × List Char) :=
  let token := s.takeWhile isBareChar
  let rest := s.dropWhile isBareChar
  if timeFollows token rest then
    let time := (rest.drop 1).takeWhile isBareChar
    (bareValue? (token ++ ' ' :: time)).map (·, (rest.drop 1).dropWhile isBareChar)
  else (bareValue? token).map (·, rest)

end FacetedSearch.Toml
