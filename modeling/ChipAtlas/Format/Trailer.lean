import ChipAtlas.Reading.Script

/-!
# The trailer

Behind the tiles stand the names of the primitive types, as many as the header of the tile table
says, between two blank lines; then lines of unknown meaning up to one that a footer word opens, and
one more line. The rest of the file is not read.
-/

namespace ChipAtlas

/-- The end of a file. -/
structure Trailer where
  belTypes : List Record
  tail : List Record
  deriving DecidableEq, Repr

namespace Trailer

/-- The words that open the last line but one. -/
def footers : List String := ["power%%20no", "FOOT_IOB"]

/-- Whether a footer word opens a record. -/
def isFooter (fields : Record) : Bool :=
  match fields with
  | first :: _ => footers.contains first
  | [] => false

/-- The trailer behind a tile table with the given header. -/
def script (tileHeader : Record) : Script Trailer := do
  .enter .trailer (.done ())
  Script.blankLine
  -- how many names there are has been said in the header of the tile table
  let n ← Script.count tileHeader 8
  let belTypes ← Script.times n (Script.fields [0])
  Script.blankLine
  let scanned ← .scan isFooter .done
  -- nothing behind this line is read
  let last ← Script.fields []
  return { belTypes, tail := scanned ++ [last] }

end Trailer

end ChipAtlas
