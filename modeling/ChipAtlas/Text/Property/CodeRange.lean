/-!
# Properties of code points as ranges

A Unicode property is kept as the list of the ranges of code points that have it, both ends
included.
-/

namespace ChipAtlas.Text.Property

/-- A range of code points, both ends included. -/
abbrev CodeRange := Nat × Nat

/-- Whether a character lies in one of the ranges. -/
def inRanges (ranges : List CodeRange) (c : Char) : Bool :=
  ranges.any fun (first, last) => first ≤ c.toNat && c.toNat ≤ last

end ChipAtlas.Text.Property
