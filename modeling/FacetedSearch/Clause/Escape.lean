/-!
# Escaping query syntax

The query language gives `:`, parentheses and `?` a meaning of their own, so a value that holds
one has a backslash put in front of it. A value in a URL may hold some of them, and braces, in
percent-encoded spelling, and those spellings get the backslash as well.

The eight spellings are dealt with one after another. None of them is part of another or can be
formed by an inserted backslash, so the order does not matter.
-/

namespace FacetedSearch.Clause

/-- The spellings that get a backslash, in the order they are dealt with. -/
def escapedSpellings : List String :=
  ["%7B", "%7D", "%3A", ":", "(", ")", "?", "%3F"]

/-- Put a backslash in front of each occurrence of `spelling`. -/
def guardSpelling (spelling : List Char) : List Char → List Char
  | [] => []
  | c :: rest =>
    if spelling.isPrefixOf (c :: rest) then '\\' :: c :: guardSpelling spelling rest
    else c :: guardSpelling spelling rest

/-- Put a backslash in front of each piece of query syntax in a text. -/
def escapeChars (term : List Char) : List Char :=
  escapedSpellings.foldl (fun text spelling => guardSpelling spelling.toList text) term

/-- Put a backslash in front of each piece of query syntax in a string. -/
def escape (term : String) : String :=
  String.ofList (escapeChars term.toList)

theorem toList_escape (term : String) : (escape term).toList = escapeChars term.toList :=
  String.toList_ofList

end FacetedSearch.Clause
