import FacetedSearch.Decimal.Layout
import FacetedSearch.Json.Basic
import FacetedSearch.Text.Digit

/-!
# Writing JSON

Two forms of the same document: on one line without blanks, or with every item and member on a
line of its own, indented by two spaces for each array or object around it. In strings only quotes,
backslashes and control characters are escaped.
-/

namespace FacetedSearch.Json

open Decimal Text

/-- One character of a string. -/
def escapeChar (c : Char) : List Char :=
  match c with
  | '"' => ['\\', '"']
  | '\\' => ['\\', '\\']
  | '\x08' => ['\\', 'b']
  | '\x0c' => ['\\', 'f']
  | '\n' => ['\\', 'n']
  | '\r' => ['\\', 'r']
  | '\t' => ['\\', 't']
  | c => if c.toNat < 0x20 then '\\' :: 'u' :: fourHex lowerHex c.toNat else [c]

/-- A string between quotes. -/
def writeString (s : String) : String :=
  String.ofList ('"' :: s.toList.flatMap escapeChar ++ ['"'])

/-- A number. -/
def Number.write : Number → String
  | whole n => toString n
  | real x => Layout.document.write x

mutual

/-- The document on one line. -/
def compact : Json → String
  | null => "null"
  | bool b => toString b
  | number n => n.write
  | string s => writeString s
  | array items => "[" ++ ",".intercalate (compactItems items) ++ "]"
  | object members => "\x7b" ++ ",".intercalate (compactMembers members) ++ "\x7d"

/-- The items of an array, each on one line. -/
def compactItems : List Json → List String
  | [] => []
  | item :: rest => compact item :: compactItems rest

/-- The members of an object, each on one line. -/
def compactMembers : List (String × Json) → List String
  | [] => []
  | (name, value) :: rest => (writeString name ++ ":" ++ compact value) :: compactMembers rest

end

/-- The start of a line inside `level` arrays and objects. -/
def indent (level : Nat) : String :=
  String.ofList (List.replicate (2 * level) ' ')

/-- Brackets around lines at one level more; nothing stands between them when there is no line. -/
def block (opening closing : String) (level : Nat) (lines : List String) : String :=
  if lines.isEmpty then opening ++ closing
  else
    let start := indent (level + 1)
    opening ++ "\n" ++ ",\n".intercalate (lines.map (start ++ ·)) ++ "\n" ++ indent level
      ++ closing

mutual

/-- The document with a line for each item and member, inside `level` arrays and objects. -/
def prettyAt (level : Nat) : Json → String
  | null => "null"
  | bool b => toString b
  | number n => n.write
  | string s => writeString s
  | array items => block "[" "]" level (prettyItems (level + 1) items)
  | object members => block "\x7b" "\x7d" level (prettyMembers (level + 1) members)

/-- The items of an array. -/
def prettyItems (level : Nat) : List Json → List String
  | [] => []
  | item :: rest => prettyAt level item :: prettyItems level rest

/-- The members of an object. -/
def prettyMembers (level : Nat) : List (String × Json) → List String
  | [] => []
  | (name, value) :: rest =>
    (writeString name ++ ": " ++ prettyAt level value) :: prettyMembers level rest

end

/-- The document with a line for each item and member. -/
def pretty (j : Json) : String :=
  prettyAt 0 j

end FacetedSearch.Json
