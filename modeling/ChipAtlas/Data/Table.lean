/-!
# Tables

A rectangle of entries, kept row by row. An entry is asked for by its row and column; a position
outside the rectangle has no entry.
-/

namespace ChipAtlas

/-- A rectangle of entries, row by row. -/
structure Table (α : Type) where
  rows : Nat
  cols : Nat
  elems : Array α
  size_eq : elems.size = rows * cols
  deriving DecidableEq, Repr

namespace Table

variable {α : Type}

/-- A table with the same entry everywhere. -/
def replicate (rows cols : Nat) (a : α) : Table α :=
  ⟨rows, cols, Array.replicate (rows * cols) a, Array.size_replicate⟩

/-- The entry at a row and a column. -/
def get? (t : Table α) (row col : Nat) : Option α :=
  if col < t.cols then t.elems[row * t.cols + col]? else none

/-- Replaces the entry at a row and a column by what a function makes of it. -/
def modify? (t : Table α) (row col : Nat) (f : α → α) : Option (Table α) :=
  if row < t.rows ∧ col < t.cols then
    some { t with
      elems := t.elems.modify (row * t.cols + col) f
      size_eq := by rw [Array.size_modify, t.size_eq] }
  else none

/-- The entries of one row. -/
def row (t : Table α) (row : Nat) : List α :=
  (t.elems.extract (row * t.cols) ((row + 1) * t.cols)).toList

/-- The rows, from the first to the last. -/
def toRows (t : Table α) : List (List α) := (List.range t.rows).map t.row

end Table

end ChipAtlas
