import FacetedSearch.Json.Basic
import FacetedSearch.Text.Digit

/-!
# Reading JSON

A document is one value with blanks around it. The rules are strict: no comments, no trailing
commas, no leading zeros or plus signs, no control characters in strings, no unpaired surrogates,
and fewer than 128 arrays and objects inside each other. A number too large for binary64 is
refused as well. Negative zero is a binary64, as whole numbers have only one zero.

A number that is not a whole one of 64 bits is not always read as the nearest binary64. The digits
that fit in 64 bits are taken for a significand, which is rounded, and so is every product or
quotient with a power of ten after that: `1900.0855798408907` is read as `1900.085579840891`.

Each reader takes the characters that are left and gives back what it read and what is then left.
-/

namespace FacetedSearch.Json

open Decimal Text

/-- The characters left after blanks. -/
def skipBlanks (s : List Char) : List Char :=
  s.dropWhile fun c => c == ' ' || c == '\t' || c == '\n' || c == '\r'

/-- The first half of a pair that spells one character. -/
def isHighSurrogate (n : Nat) : Bool :=
  0xD800 ≤ n && n < 0xDC00

/-- The second half of a pair that spells one character. -/
def isLowSurrogate (n : Nat) : Bool :=
  0xDC00 ≤ n && n < 0xE000

/-- The character that a pair of surrogates spells. -/
def pairedChar (high low : Nat) : Char :=
  Char.ofNat (0x10000 + (high - 0xD800) * 0x400 + (low - 0xDC00))

/-- The character of a one-letter escape. -/
def simpleEscape? : Char → Option Char
  | '"' => some '"'
  | '\\' => some '\\'
  | '/' => some '/'
  | 'b' => some '\x08'
  | 'f' => some '\x0c'
  | 'n' => some '\n'
  | 'r' => some '\r'
  | 't' => some '\t'
  | _ => none

/-- Put a character in front of what a reader read. -/
def consRead (c : Char) (r : Option (List Char × List Char)) : Option (List Char × List Char) :=
  r.map fun (chars, rest) => (c :: chars, rest)

/-- Read a string after its opening quote. -/
def readString? : List Char → Option (List Char × List Char)
  | [] => none
  | '"' :: rest => some ([], rest)
  | '\\' :: 'u' :: a :: b :: c :: d :: rest =>
    match hexNumber? [a, b, c, d] with
    | none => none
    | some n =>
      if isHighSurrogate n then
        match rest with
        | '\\' :: 'u' :: e :: f :: g :: h :: rest =>
          match hexNumber? [e, f, g, h] with
          | none => none
          | some m =>
            if isLowSurrogate m then consRead (pairedChar n m) (readString? rest) else none
        | _ => none
      else if isLowSurrogate n then none
      else consRead (Char.ofNat n) (readString? rest)
  | '\\' :: c :: rest =>
    match simpleEscape? c with
    | some e => consRead e (readString? rest)
    | none => none
  | c :: rest => if c.toNat < 0x20 || c == '\\' then none else consRead c (readString? rest)

/-- Read the digits after a point, when there is one; there has to be a digit. -/
def readFraction? : List Char → Option (List Char × List Char)
  | '.' :: s =>
    let (digits, rest) := spanDigits s
    if digits.isEmpty then none else some (digits, rest)
  | s => some ([], s)

/-- Read an exponent, when there is one; there has to be a digit. -/
def readExponent? (s : List Char) : Option (Option Int × List Char) :=
  match s with
  | c :: s' =>
    if c == 'e' || c == 'E' then
      let (negative, s') := match s' with
        | '-' :: t => (true, t)
        | '+' :: t => (false, t)
        | t => (false, t)
      let (digits, rest) := spanDigits s'
      if digits.isEmpty then none
      else
        let e : Int := digitsValue digits
        some (some (if negative then -e else e), rest)
    else some (none, s)
  | [] => some (none, [])

/-- The number that the leading digits give when they stand behind `value`, as many of them as fit
in 64 bits, and how many are left over. -/
def takeFitting (value : Nat) : List Char → Nat × Nat
  | [] => (value, 0)
  | c :: digits =>
    let next := 10 * value + digitsValue [c]
    if next < Nat.pow 2 64 then takeFitting next digits else (value, digits.length + 1)

/-- The binary64 with the given parts. The digits of the fraction that are left over count for
nothing, those of the whole part for their places. -/
def makeReal? (negative : Bool) (whole fraction : List Char) (exponent : Int) :
    Option Binary64.Finite := do
  let (leading, left) := takeFitting 0 whole
  let (significand, ignored) := takeFitting leading fraction
  let taken := fraction.length - ignored
  let x ← Binary64.Finite.ofRatio? negative significand 1
  x.scaleByTen? (exponent + left - taken)

/-- The number with the given parts: whole when it is written as one and fits in 64 bits. -/
def makeNumber? (negative : Bool) (whole fraction : List Char) (exponent : Option Int)
    (hasPoint : Bool) : Option Number :=
  let n := digitsValue whole
  let fits := if negative then 0 < n && n ≤ Nat.pow 2 63 else n < Nat.pow 2 64
  if !hasPoint && exponent.isNone && fits then
    some (.whole (if negative then -(n : Int) else n))
  else
    (makeReal? negative whole fraction (exponent.getD 0)).map .real

/-- Read a number without its sign. -/
def readUnsigned? (negative : Bool) (s : List Char) : Option (Number × List Char) := do
  let (whole, rest) := spanDigits s
  if whole.isEmpty || (whole.head? == some '0' && 1 < whole.length) then none
  let (fraction, rest) ← readFraction? rest
  let (exponent, rest) ← readExponent? rest
  let number ← makeNumber? negative whole fraction exponent (!fraction.isEmpty)
  return (number, rest)

/-- Read a number. -/
def readNumber? : List Char → Option (Number × List Char)
  | '-' :: s => readUnsigned? true s
  | s => readUnsigned? false s

/-- Read a name and the colon after it, from its opening quote on. -/
def readName? : List Char → Option (String × List Char)
  | '"' :: s => do
    let (name, rest) ← readString? s
    match skipBlanks rest with
    | ':' :: rest => some (String.ofList name, rest)
    | _ => none
  | _ => none

/-- Read the word `word` as the value `j`. -/
def readWord? (word : String) (j : Json) (s : List Char) : Option (Json × List Char) :=
  if word.toList.isPrefixOf s then some (j, s.drop word.length) else none

mutual

/-- Read a value. `depth` is the number of arrays and objects that may still be opened. -/
def readValue? (fuel depth : Nat) (s : List Char) : Option (Json × List Char) :=
  match fuel with
  | 0 => none
  | fuel + 1 =>
    match skipBlanks s with
    | '"' :: rest =>
      (readString? rest).map fun (chars, rest) => (string (String.ofList chars), rest)
    | '[' :: rest =>
      match depth with
      | 0 => none
      | depth + 1 =>
        match skipBlanks rest with
        | ']' :: rest => some (array [], rest)
        | rest => (readItems? fuel depth rest).map fun (items, rest) => (array items, rest)
    | '{' :: rest =>
      match depth with
      | 0 => none
      | depth + 1 =>
        match skipBlanks rest with
        | '}' :: rest => some (object [], rest)
        | rest => (readMembers? fuel depth rest).map fun (members, rest) => (object members, rest)
    | 'n' :: rest => readWord? "ull" null rest
    | 't' :: rest => readWord? "rue" (bool true) rest
    | 'f' :: rest => readWord? "alse" (bool false) rest
    | rest => (readNumber? rest).map fun (n, rest) => (number n, rest)

/-- Read the items of an array, of which there is at least one, and the closing bracket. -/
def readItems? (fuel depth : Nat) (s : List Char) : Option (List Json × List Char) :=
  match fuel with
  | 0 => none
  | fuel + 1 =>
    match readValue? fuel depth s with
    | none => none
    | some (item, rest) =>
      match skipBlanks rest with
      | ']' :: rest => some ([item], rest)
      | ',' :: rest => (readItems? fuel depth rest).map fun (items, rest) => (item :: items, rest)
      | _ => none

/-- Read the members of an object, of which there is at least one, and the closing brace. -/
def readMembers? (fuel depth : Nat) (s : List Char) :
    Option (List (String × Json) × List Char) :=
  match fuel with
  | 0 => none
  | fuel + 1 =>
    match readName? (skipBlanks s) with
    | none => none
    | some (name, rest) =>
      match readValue? fuel depth rest with
      | none => none
      | some (value, rest) =>
        match skipBlanks rest with
        | '}' :: rest => some ([(name, value)], rest)
        | ',' :: rest =>
          (readMembers? fuel depth rest).map fun (members, rest) => ((name, value) :: members, rest)
        | _ => none

end

/-- The number of arrays and objects that may stand inside each other. -/
def maxDepth : Nat := 127

/-- Read a document in which at most `depth` arrays and objects stand inside each other. -/
def parseWithin? (depth : Nat) (text : String) : Option Json :=
  let s := text.toList
  match readValue? (2 * s.length + 1) depth s with
  | some (j, rest) => if (skipBlanks rest).isEmpty then some j else none
  | none => none

/-- Read a document. -/
def parse? (text : String) : Option Json :=
  parseWithin? maxDepth text

end FacetedSearch.Json
