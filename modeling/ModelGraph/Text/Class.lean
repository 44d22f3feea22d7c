/-! # Character classes

A class of characters is a list of ranges of code points. -/

namespace ModelGraph.Text

/-- The code point of the character lies in one of the ranges. -/
def inRanges (ranges : List (Nat × Nat)) (c : Char) : Bool :=
  ranges.any fun (first, last) => first ≤ c.toNat && c.toNat ≤ last

end ModelGraph.Text
