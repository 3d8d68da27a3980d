/-!
# Editions of the format

The Zstandard format changed before it was settled. Files of the last editions before can be read,
too.
-/

namespace ChipAtlas.Zstandard

/-- The editions of the format that can be read. -/
inductive Edition where
  | fourth
  | fifth
  | sixth
  | seventh
  | present
  deriving DecidableEq

/-- The longest block of any edition. -/
def longestBlock : Nat := 1 <<< 17

end ChipAtlas.Zstandard
