/-! # Code point ranges

Classes of characters given as sorted ranges of code points.
-/

namespace AdfMarkdown.Text

/-- The first and the last code point of a range. -/
abbrev CodeRange := Nat × Nat

def inRanges (ranges : List CodeRange) (c : Char) : Bool :=
  ranges.any fun r => decide (r.1 ≤ c.toNat ∧ c.toNat ≤ r.2)

end AdfMarkdown.Text
