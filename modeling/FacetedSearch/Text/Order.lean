/-!
# Texts in order

Strings are ordered by their code points, which is also the order of their UTF-8 bytes.
-/

namespace FacetedSearch.Text

/-- The order that lists are sorted by. -/
def precedes (a b : String) : Bool :=
  decide (a ≤ b)

/-- The number of bytes of a string in UTF-8. -/
abbrev size (s : String) : Nat :=
  s.utf8ByteSize

theorem size_append (s t : String) : size (s ++ t) = size s + size t :=
  String.utf8ByteSize_append

end FacetedSearch.Text
