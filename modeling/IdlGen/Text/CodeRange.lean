/-!
# Ranges of code points

A character property is data: a list of inclusive ranges of code points in ascending order.
-/

namespace IdlGen.Text

/-- Inclusive ranges of code points. -/
abbrev CodeRanges := List (Nat × Nat)

/-- Whether a range holds the character. -/
def CodeRanges.covers (ranges : CodeRanges) (c : Char) : Bool :=
  ranges.any fun (lo, hi) => lo ≤ c.toNat && c.toNat ≤ hi

end IdlGen.Text
