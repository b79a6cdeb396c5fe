import FacetedSearch.Text.Digit

/-!
# Percent-encoding

A text travels in a URL component as ASCII. Letters, digits and nine marks stand for themselves;
every other character is written as its UTF-8 bytes, each a percent sign and two upper-case
hexadecimal digits. `decodePercent` is the reading direction: it accepts digits of either case and
requires the bytes to be UTF-8.
-/

namespace FacetedSearch.Text

/-- The marks that stand for themselves in a URL component. -/
def componentMarks : List Char :=
  ['-', '_', '.', '!', '~', '*', '\'', '(', ')']

/-- A character that needs no encoding in a URL component. -/
def isComponentChar (c : Char) : Bool :=
  isAsciiDigit c || isAsciiLetter c || componentMarks.contains c

/-- One byte as a percent sign and two digits. -/
def percentByte (b : UInt8) : List Char :=
  ['%', upperHex (b.toNat / 16), upperHex (b.toNat % 16)]

/-- One character of a URL component. -/
def percentChar (c : Char) : List Char :=
  if isComponentChar c then [c] else (String.utf8EncodeChar c).flatMap percentByte

/-- A text as a URL component. -/
def percentChars (s : List Char) : List Char :=
  s.flatMap percentChar

/-- A string as a URL component. -/
def percentEncode (s : String) : String :=
  String.ofList (percentChars s.toList)

@[simp] theorem percentChars_nil : percentChars [] = [] := rfl

@[simp] theorem percentChars_cons (c : Char) (s : List Char) :
    percentChars (c :: s) = percentChar c ++ percentChars s := rfl

theorem percentChars_append (s t : List Char) :
    percentChars (s ++ t) = percentChars s ++ percentChars t :=
  List.flatMap_append

theorem toList_percentEncode (s : String) : (percentEncode s).toList = percentChars s.toList :=
  String.toList_ofList

/-- The bytes that a percent-encoded text stands for; a percent sign without two digits is an
error. -/
def percentBytes? : List Char → Option (List UInt8)
  | [] => some []
  | '%' :: high :: low :: rest => do
    let h ← hexDigit? high
    let l ← hexDigit? low
    let bytes ← percentBytes? rest
    return UInt8.ofNat (16 * h + l) :: bytes
  | c :: rest => do
    if c = '%' then none
    let bytes ← percentBytes? rest
    return String.utf8EncodeChar c ++ bytes

/-- Read a percent-encoded text. -/
def decodePercent? (s : List Char) : Option (List Char) := do
  let bytes ← percentBytes? s
  let chars ← (ByteArray.mk bytes.toArray).utf8Decode?
  return chars.toList

end FacetedSearch.Text
