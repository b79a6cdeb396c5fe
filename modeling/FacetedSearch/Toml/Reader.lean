import FacetedSearch.Toml.Quoted
import FacetedSearch.Toml.Scalar
import FacetedSearch.Toml.Table

/-!
# Reading TOML

A document is a list of entries, under headers or in front of the first one. Reading has two
stages: the text is split into entries and headers, which only the spelling decides, and the
entries are put into tables, which fails when a name is given twice.

Each reader takes the characters that are left and gives back what it read and what is then left.
-/

namespace FacetedSearch.Toml

open Text

/-! ## Blanks, comments and line ends -/

/-- Skip blanks within a line. -/
def skipSpaces (s : List Char) : List Char :=
  s.dropWhile isSpace

/-- Skip blanks, comments and line breaks. A comment holds no control characters. -/
def skipTrivia? (inComment : Bool) : List Char → Option (List Char)
  | [] => some []
  | '\n' :: rest => skipTrivia? false rest
  | '\r' :: '\n' :: rest => skipTrivia? false rest
  | c :: rest =>
    if inComment then if isControl c then none else skipTrivia? true rest
    else if isSpace c then skipTrivia? false rest
    else if c = '#' then skipTrivia? true rest
    else some (c :: rest)

/-- Nothing but blanks and a comment follow on the line. -/
def atLineEnd (s : List Char) : Bool :=
  match skipSpaces s with
  | [] => true
  | '#' :: _ => true
  | rest => startsWithBreak rest

/-- Skip to the next entry or header; the rest of this line has to be empty. -/
def nextLine? (s : List Char) : Option (List Char) :=
  if atLineEnd s then skipTrivia? false s else none

/-! ## Keys -/

/-- A character of a name without quotes. -/
def isNameChar (c : Char) : Bool :=
  isAsciiDigit c || isAsciiLetter c || c == '_' || c == '-'

/-- Read a name. -/
def readName? (s : List Char) : Option (String × List Char) :=
  match readShortString? s with
  | some (name, rest) => some (String.ofList name, rest)
  | none =>
    let name := s.takeWhile isNameChar
    if name.isEmpty then none else some (String.ofList name, s.dropWhile isNameChar)

/-- Read a key: names with points between them. -/
def readKey? : Nat → List Char → Option (Key × List Char)
  | 0, _ => none
  | fuel + 1, s =>
    match readName? s with
    | none => none
    | some (name, rest) =>
      match skipSpaces rest with
      | '.' :: rest =>
        (readKey? fuel (skipSpaces rest)).map fun (key, rest) => (key.under name, rest)
      | rest => some ({ path := [], name }, rest)

/-! ## Values -/

/-- The number of arrays and inline tables that may stand inside each other. -/
def maxDepth : Nat := 80

mutual

/-- Read a value. `depth` is the number of arrays and tables that may still be opened. -/
def readValue? (fuel depth : Nat) (s : List Char) : Option (Value × List Char) :=
  match fuel with
  | 0 => none
  | fuel + 1 =>
    match s with
    | '[' :: rest =>
      match depth, skipTrivia? false rest with
      | depth + 1, some rest =>
        (readItems? fuel depth rest).map fun (items, rest) => (.array items, rest)
      | _, _ => none
    | '{' :: rest =>
      match depth, skipTrivia? false rest with
      | depth + 1, some rest =>
        match readInline? fuel depth rest with
        | none => none
        | some (entries, rest) => (inlineTable? entries).map fun table => (.table table, rest)
      | _, _ => none
    | c :: rest =>
      if c = '"' ∨ c = '\'' then
        (readString? (c :: rest)).map fun (chars, rest) => (.string (String.ofList chars), rest)
      else readBare? (c :: rest)
    | [] => none

/-- Read the items of an array and its closing bracket. A comma may follow the last item. -/
def readItems? (fuel depth : Nat) (s : List Char) : Option (List Value × List Char) :=
  match fuel with
  | 0 => none
  | fuel + 1 =>
    match s with
    | ']' :: rest => some ([], rest)
    | s =>
      match readValue? fuel depth s with
      | none => none
      | some (item, rest) =>
        match skipTrivia? false rest with
        | some (']' :: rest) => some ([item], rest)
        | some (',' :: rest) =>
          match skipTrivia? false rest with
          | none => none
          | some rest =>
            (readItems? fuel depth rest).map fun (items, rest) => (item :: items, rest)
        | _ => none

/-- Read the entries of an inline table and its closing brace. A comma may follow the last one. -/
def readInline? (fuel depth : Nat) (s : List Char) : Option (List Assignment × List Char) :=
  match fuel with
  | 0 => none
  | fuel + 1 =>
    match s with
    | '}' :: rest => some ([], rest)
    | s =>
      match readEntry? fuel depth s with
      | none => none
      | some (entry, rest) =>
        match skipTrivia? false rest with
        | some ('}' :: rest) => some ([entry], rest)
        | some (',' :: rest) =>
          match skipTrivia? false rest with
          | none => none
          | some rest =>
            (readInline? fuel depth rest).map fun (entries, rest) => (entry :: entries, rest)
        | _ => none

/-- Read an entry of an inline table: a key, an equals sign and a value. Comments and line breaks
may stand on both sides of the sign, but not within the key. -/
def readEntry? (fuel depth : Nat) (s : List Char) : Option (Assignment × List Char) :=
  match fuel with
  | 0 => none
  | fuel + 1 =>
    match readKey? s.length s with
    | none => none
    | some (key, rest) =>
      match skipTrivia? false rest with
      | some ('=' :: rest) =>
        match skipTrivia? false rest with
        | none => none
        | some rest =>
          (readValue? fuel depth rest).map fun (value, rest) => ({ key, value }, rest)
      | _ => none

end

/-- Read an entry that starts a line: a key, an equals sign and the start of a value stand on the
same line. -/
def readAssignment? (s : List Char) : Option (Assignment × List Char) :=
  match readKey? s.length s with
  | some (key, '=' :: rest) =>
    (readValue? (2 * s.length + 2) maxDepth (skipSpaces rest)).map
      fun (value, rest) => ({ key, value }, rest)
  | _ => none

/-! ## Documents -/

/-- Read the header of a table, behind its opening bracket. -/
def readTableHeader? (s : List Char) : Option (Header × List Char) :=
  match readKey? s.length (skipSpaces s) with
  | some (key, ']' :: rest) => some ({ key, kind := .table }, rest)
  | _ => none

/-- Read the header of an item in an array of tables, behind its opening brackets. -/
def readItemHeader? (s : List Char) : Option (Header × List Char) :=
  match readKey? s.length (skipSpaces s) with
  | some (key, ']' :: ']' :: rest) => some ({ key, kind := .item }, rest)
  | _ => none

/-- Read one line: a header or an entry, which may go over several lines. -/
def readStatement? (s : List Char) : Option (Statement × List Char) :=
  match s with
  | '[' :: '[' :: rest => (readItemHeader? rest).map fun (h, rest) => (.header h, rest)
  | '[' :: rest => (readTableHeader? rest).map fun (h, rest) => (.header h, rest)
  | s => (readAssignment? s).map fun (a, rest) => (.assign a, rest)

/-- Read every line. -/
def readStatements? : Nat → List Char → Option (List Statement)
  | 0, _ => none
  | _ + 1, [] => some []
  | fuel + 1, s =>
    match readStatement? s with
    | none => none
    | some (statement, rest) =>
      match nextLine? rest with
      | none => none
      | some rest => (readStatements? fuel rest).map (statement :: ·)

/-- A byte order mark in front of a text is left out. -/
def dropByteOrderMark : List Char → List Char
  | '\ufeff' :: rest => rest
  | s => s

/-- Split a document into headers and entries. -/
def statements? (text : String) : Option (List Statement) :=
  match skipTrivia? false (dropByteOrderMark text.toList) with
  | none => none
  | some s => readStatements? (s.length + 1) s

/-- Read a document. -/
def parse? (text : String) : Option (List (String × Value)) := do
  document? (← statements? text)

end FacetedSearch.Toml
