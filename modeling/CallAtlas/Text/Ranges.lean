/-!
# Sets of characters given by ranges of code points

A property of the Unicode standard is a long list of ranges. `CodeRanges` is that list,
`CodeRanges.contains` the membership test; the tables themselves stand in modules named for their
property.
-/

namespace CallAtlas.Text

/-- Closed ranges of code points, in increasing order. -/
abbrev CodeRanges := List (Nat × Nat)

namespace CodeRanges

/-- Whether a character lies in one of the ranges. -/
def contains (ranges : CodeRanges) (c : Char) : Bool :=
  ranges.any fun r => r.1 ≤ c.toNat && c.toNat ≤ r.2

end CodeRanges

end CallAtlas.Text
