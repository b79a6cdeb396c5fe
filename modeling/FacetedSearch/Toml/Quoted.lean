import FacetedSearch.Text.Digit

/-!
# Strings in TOML

A string stands between quotes or apostrophes, one of them or three. Between quotes a backslash
starts an escape; between apostrophes every character stands for itself. Three of either may hold
line breaks, and a line break right after the opening is left out. Between three quotes, a backslash
at the end of a line leaves out the break and the blanks around it.

Writing takes the first form that needs no escapes, and escapes only when no form does without.
-/

namespace FacetedSearch.Toml

open Text

/-- The form of a string. -/
inductive Form where
  /-- Between quotes. -/
  | basic
  /-- Between apostrophes. -/
  | literal
  /-- Between three quotes. -/
  | longBasic
  /-- Between three apostrophes. -/
  | longLiteral
  deriving DecidableEq, Repr

/-- A control character other than tab and line feed; no form of string may hold one as it is. -/
def isControl (c : Char) : Bool :=
  (c.toNat < 0x20 && c != '\t' && c != '\n') || c.toNat == 0x7F

/-! ## Reading -/

/-- A blank within a line. -/
def isSpace (c : Char) : Bool :=
  c == ' ' || c == '\t'

/-- A blank or a part of a line break. -/
def isSpaceOrBreak (c : Char) : Bool :=
  isSpace c || c == '\n' || c == '\r'

/-- Every carriage return is followed by a line feed. -/
def breaksAreWhole : List Char → Bool
  | [] => true
  | '\r' :: '\n' :: rest => breaksAreWhole rest
  | c :: rest => c != '\r' && breaksAreWhole rest

/-- The text starts with a line break. -/
def startsWithBreak : List Char → Bool
  | '\n' :: _ => true
  | '\r' :: '\n' :: _ => true
  | _ => false

/-- The character with the given code point, unless it is a surrogate or too large. -/
def scalar? (n : Nat) : Option Char :=
  if n.isValidChar then some (Char.ofNat n) else none

/-- The character of a numeric escape with `count` digits, and the number of characters read. -/
def numericEscape? (count : Nat) (s : List Char) : Option (Char × Nat) :=
  if (s.take count).length = count then
    ((hexNumber? (s.take count)).bind scalar?).map (·, count + 1)
  else none

/-- The character that an escape stands for, and the number of characters read behind the
backslash. -/
def escape? : List Char → Option (Char × Nat)
  | 'b' :: _ => some ('\x08', 1)
  | 't' :: _ => some ('\t', 1)
  | 'n' :: _ => some ('\n', 1)
  | 'f' :: _ => some ('\x0c', 1)
  | 'r' :: _ => some ('\r', 1)
  | 'e' :: _ => some ('\x1b', 1)
  | '"' :: _ => some ('"', 1)
  | '\\' :: _ => some ('\\', 1)
  | 'x' :: s => numericEscape? 2 s
  | 'u' :: s => numericEscape? 4 s
  | 'U' :: s => numericEscape? 8 s
  | _ => none

/-- The number of characters that a backslash at the end of a line leaves out. -/
def continuation? (s : List Char) : Option Nat :=
  if startsWithBreak (s.dropWhile isSpace) && breaksAreWhole (s.takeWhile isSpaceOrBreak) then
    some (s.takeWhile isSpaceOrBreak).length
  else none

/-- Put characters in front of what a reader read. -/
def prepend (chars : List Char) (r : Option (List Char × List Char)) :
    Option (List Char × List Char) :=
  r.map fun (more, rest) => (chars ++ more, rest)

/-- Read a string behind its opening quote; the first `skip` characters have been dealt with. -/
def readBasic? (skip : Nat) : List Char → Option (List Char × List Char)
  | [] => none
  | c :: rest =>
    match skip with
    | skip + 1 => readBasic? skip rest
    | 0 =>
      if c = '"' then some ([], rest)
      else if c = '\\' then
        match escape? rest with
        | some (e, used) => prepend [e] (readBasic? used rest)
        | none => none
      else if isControl c || c = '\n' then none
      else prepend [c] (readBasic? 0 rest)

/-- Read a string behind its opening apostrophe. -/
def readLiteral? : List Char → Option (List Char × List Char)
  | [] => none
  | c :: rest =>
    if c = '\'' then some ([], rest)
    else if isControl c || c = '\n' then none
    else prepend [c] (readLiteral? rest)

/-- Up to two marks right in front of the closing ones belong to the string. `s` is what follows
three marks. -/
def closing (mark : Char) (s : List Char) : List Char × List Char :=
  let extra := min 2 (s.takeWhile (· == mark)).length
  (List.replicate extra mark, s.drop extra)

/-- Two more marks follow. -/
def closes (mark : Char) : List Char → Bool
  | a :: b :: _ => a == mark && b == mark
  | _ => false

/-- Read a string behind its three opening quotes; the first `skip` characters have been dealt
with. -/
def readLongBasic? (skip : Nat) : List Char → Option (List Char × List Char)
  | [] => none
  | c :: rest =>
    match skip with
    | skip + 1 => readLongBasic? skip rest
    | 0 =>
      if c = '"' then
        if closes '"' rest then some (closing '"' (rest.drop 2))
        else prepend [c] (readLongBasic? 0 rest)
      else if c = '\\' then
        match escape? rest, continuation? rest with
        | some (e, used), _ => prepend [e] (readLongBasic? used rest)
        | none, some used => readLongBasic? used rest
        | none, none => none
      else if c = '\r' then
        if rest.head? = some '\n' then prepend [c] (readLongBasic? 0 rest) else none
      else if isControl c then none
      else prepend [c] (readLongBasic? 0 rest)

/-- Read a string behind its three opening apostrophes. -/
def readLongLiteral? : List Char → Option (List Char × List Char)
  | [] => none
  | c :: rest =>
    if c = '\'' then
      if closes '\'' rest then some (closing '\'' (rest.drop 2))
      else prepend [c] (readLongLiteral? rest)
    else if c = '\r' then
      if rest.head? = some '\n' then prepend [c] (readLongLiteral? rest) else none
    else if isControl c then none
    else prepend [c] (readLongLiteral? rest)

/-- Leave out a line break at the start. -/
def dropBreak : List Char → List Char
  | '\n' :: rest => rest
  | '\r' :: '\n' :: rest => rest
  | s => s

/-- Read a string of one line, from its opening mark on. -/
def readShortString? : List Char → Option (List Char × List Char)
  | '"' :: rest => readBasic? 0 rest
  | '\'' :: rest => readLiteral? rest
  | _ => none

/-- Read a string of any form, from its opening mark on. -/
def readString? : List Char → Option (List Char × List Char)
  | '"' :: '"' :: '"' :: rest => readLongBasic? 0 (dropBreak rest)
  | '\'' :: '\'' :: '\'' :: rest => readLongLiteral? (dropBreak rest)
  | s => readShortString? s

/-! ## Writing -/

/-- The text holds three of the mark in a row. -/
def hasTriple (mark : Char) : List Char → Bool
  | [] => false
  | c :: rest => (c == mark && closes mark rest) || hasTriple mark rest

/-- The form that a string is written in: the first that can hold it without an escape, tabs
apart; when there is none, a form with quotes, a long one if there are line breaks. -/
def formFor (s : List Char) : Form :=
  let plain := !s.any isControl
  let oneLine := !s.contains '\n'
  if plain && oneLine && !s.contains '\\' && !s.contains '"' then .basic
  else if plain && oneLine && !s.contains '\'' then .literal
  else if plain && !s.contains '\\' && !hasTriple '"' s then .longBasic
  else if plain && !hasTriple '\'' s then .longLiteral
  else if oneLine then .basic
  else .longBasic

/-- One character between quotes. -/
def writeChar (c : Char) : List Char :=
  match c with
  | '\x08' => ['\\', 'b']
  | '\t' => ['\\', 't']
  | '\n' => ['\\', 'n']
  | '\x0c' => ['\\', 'f']
  | '\r' => ['\\', 'r']
  | '"' => ['\\', '"']
  | '\\' => ['\\', '\\']
  | c => if isControl c then '\\' :: 'u' :: fourHex upperHex c.toNat else [c]

/-- The characters between three quotes. Line feeds stand for themselves, and so does a quote
unless it is the third in a row; `run` counts the quotes right before. -/
def writeLong (run : Nat) : List Char → List Char
  | [] => []
  | c :: rest =>
    if c = '"' then
      if run = 2 then '\\' :: '"' :: writeLong 0 rest else '"' :: writeLong (run + 1) rest
    else if c = '\n' then '\n' :: writeLong 0 rest
    else writeChar c ++ writeLong 0 rest

/-- A line break behind the opening of a string that holds one. -/
def openingBreak (s : List Char) : List Char :=
  if s.contains '\n' then ['\n'] else []

/-- Write a string in the given form. -/
def writeAs (form : Form) (s : List Char) : List Char :=
  match form with
  | .basic => '"' :: s.flatMap writeChar ++ ['"']
  | .literal => '\'' :: s ++ ['\'']
  | .longBasic => ['"', '"', '"'] ++ openingBreak s ++ writeLong 0 s ++ ['"', '"', '"']
  | .longLiteral => ['\'', '\'', '\''] ++ openingBreak s ++ s ++ ['\'', '\'', '\'']

/-- Write a string. -/
def writeString (s : String) : String :=
  String.ofList (writeAs (formFor s.toList) s.toList)

end FacetedSearch.Toml
