import FacetedSearch.Text.Digit

/-!
# Values that need quotes

A value is searched as one phrase when it holds a space or names an account: an LDAP
distinguished name such as `uid=jdoe,o=NCEAS`, or an ORCID address. A value with a timestamp in it
is a bound of a range and is never quoted, whatever else it holds.

Each of the shapes is a list of character classes to be matched in turn, or two such lists with a
gap between them. A gap is at least one character long and does not run over a line break.
-/

namespace FacetedSearch.Clause

open Text

/-- The first characters of a text fall in the given classes, one after another. -/
def startsWithClasses : List (Char → Bool) → List Char → Bool
  | [], _ => true
  | _ :: _, [] => false
  | fits :: more, c :: rest => fits c && startsWithClasses more rest

/-- Some end of the text, the whole text and the empty one included, satisfies `test`. -/
def anySuffix (test : List Char → Bool) : List Char → Bool
  | [] => test []
  | c :: rest => test (c :: rest) || anySuffix test rest

/-- What is left of the text after a gap satisfies `test`. -/
def afterGap (test : List Char → Bool) : List Char → Bool
  | [] => false
  | c :: rest => c != '\n' && (test rest || afterGap test rest)

/-- A class that holds one character. -/
def exactly (expected : Char) : Char → Bool :=
  (· == expected)

/-- A class that holds the given characters. -/
def oneOf (chars : String) : Char → Bool :=
  fun c => chars.toList.contains c

/-- The characters of `text`, each as a class. -/
def literally (text : String) : List (Char → Bool) :=
  text.toList.map exactly

/-- Date and time of a timestamp, up to the seconds: `2020-01-01T00:00:00`. -/
def dateTimeClasses : List (Char → Bool) :=
  [isDecimalDigit, isDecimalDigit, isDecimalDigit, isDecimalDigit, exactly '-',
    oneOf "01", isDecimalDigit, exactly '-', oneOf "0123", isDecimalDigit, exactly 'T',
    oneOf "012", isDecimalDigit, exactly ':', oneOf "012345", isDecimalDigit, exactly ':',
    oneOf "012345", isDecimalDigit]

/-- An offset from universal time: `+02:00`. -/
def offsetClasses : List (Char → Bool) :=
  [oneOf "+-", oneOf "012", isDecimalDigit, exactly ':', oneOf "012345", isDecimalDigit]

/-- A timestamp starts the text. -/
def startsWithTimestamp (s : List Char) : Bool :=
  startsWithClasses (dateTimeClasses ++ [exactly 'Z']) s
    || startsWithClasses (dateTimeClasses ++ offsetClasses) s

/-- The attribute names that a distinguished name starts at. -/
def subjectMarks : List String :=
  ["uid=", "UID=", "cn=", "CN="]

/-- An ASCII letter and an equals sign start the text, and what follows satisfies `test`. -/
def attributeThen (test : List Char → Bool) : List Char → Bool
  | c :: '=' :: rest => isAsciiLetter c && test rest
  | _ => false

/-- A distinguished name starts the text: a mark, then two more attributes, each after a gap. -/
def startsWithSubject (s : List Char) : Bool :=
  subjectMarks.any fun mark =>
    mark.toList.isPrefixOf s
      && afterGap (attributeThen (afterGap (attributeThen fun _ => true))) (s.drop mark.length)

/-- The shape of an ORCID address. -/
def orcidClasses : List (Char → Bool) :=
  let digits := List.replicate 4 isAsciiDigit
  literally "http://orcid.org/" ++ digits ++ [exactly '-'] ++ digits ++ [exactly '-'] ++ digits
    ++ [exactly '-'] ++ List.replicate 4 fun c => isAsciiDigit c || c == 'X'

/-- The value has to be quoted to be searched as one phrase. -/
def needsQuotesChars (s : List Char) : Bool :=
  !anySuffix startsWithTimestamp s
    && (s.contains ' ' || anySuffix startsWithSubject s || startsWithClasses orcidClasses s)

/-- The value has to be quoted to be searched as one phrase. -/
def needsQuotes (value : String) : Bool :=
  needsQuotesChars value.toList

end FacetedSearch.Clause
