import FacetedSearch.Clause.Basic

/-!
# Compiler settings

What a deployment decides about its queries: how they travel, how values are written, and how long
a query may get. Lengths are counted in bytes of UTF-8.
-/

namespace FacetedSearch

/-- How a request reaches the index. -/
inductive Transport where
  /-- The query is part of the URL. -/
  | get
  /-- The query is the body of the request. -/
  | post
  deriving DecidableEq, Repr

/-- The name of the request method. -/
def Transport.name : Transport → String
  | get => "GET"
  | post => "POST"

/-- The settings of the query compiler. -/
structure Settings where
  /-- Only GET requests reach the index, so long queries have to be cut. -/
  disableQueryPosts : Bool := false
  /-- The map filter is offered. -/
  spatialEnabled : Bool := true
  /-- How values are written. -/
  encoding : Encoding := .url
  /-- No geohash cell is added behind this many bytes when only GET requests are possible. -/
  geohashQueryLimit : Nat := 1900
  /-- A longer request is posted. -/
  urlLengthLimit : Nat := 2000
  deriving DecidableEq, Repr

/-- How a request of the given length is sent. -/
def Settings.transportFor (s : Settings) (length : Nat) : Transport :=
  if s.disableQueryPosts || length ≤ s.urlLengthLimit then .get else .post

end FacetedSearch
