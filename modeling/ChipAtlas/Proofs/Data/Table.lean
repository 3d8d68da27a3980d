import ChipAtlas.Data.Table

/-!
# Look-ups in tables

* `Table.get?_replicate` — a fresh table has its entry everywhere inside the rectangle;
* `Table.isSome_get?_iff` — every table has entries inside its rectangle only;
* `Table.modify?_eq_some`, `Table.get?_of_modify?` — a change takes place inside the rectangle, and
  only at its row and column.
-/

namespace ChipAtlas.Table

variable {α : Type}

/-- Two positions in one place of the row-by-row layout are the same position. -/
theorem index_inj {cols row col row' col' : Nat} (hcol : col < cols) (hcol' : col' < cols) :
    row * cols + col = row' * cols + col' ↔ row = row' ∧ col = col' := by
  refine ⟨?_, ?_⟩
  · intro h
    have hpos : 0 < cols := Nat.zero_lt_of_lt hcol
    -- the row is the quotient by the number of columns, and the column the remainder
    have hrow : row = row' := by
      calc row = (row * cols + col) / cols := by
            rw [Nat.mul_comm, Nat.mul_add_div hpos, Nat.div_eq_of_lt hcol, Nat.add_zero]
        _ = (row' * cols + col') / cols := by rw [h]
        _ = row' := by
            rw [Nat.mul_comm, Nat.mul_add_div hpos, Nat.div_eq_of_lt hcol', Nat.add_zero]
    have hcols : col = col' := by
      calc col = (row * cols + col) % cols := by
            rw [Nat.mul_comm, Nat.mul_add_mod, Nat.mod_eq_of_lt hcol]
        _ = (row' * cols + col') % cols := by rw [h]
        _ = col' := by rw [Nat.mul_comm, Nat.mul_add_mod, Nat.mod_eq_of_lt hcol']
    exact ⟨hrow, hcols⟩
  · rintro ⟨rfl, rfl⟩
    rfl

theorem index_lt {rows cols row col : Nat} (hrow : row < rows) (hcol : col < cols) :
    row * cols + col < rows * cols := by
  calc row * cols + col < row * cols + cols := Nat.add_lt_add_left hcol _
    _ = (row + 1) * cols := (Nat.succ_mul row cols).symm
    _ ≤ rows * cols := Nat.mul_le_mul_right cols hrow

theorem get?_replicate {rows cols row col : Nat} (a : α) (hrow : row < rows) (hcol : col < cols) :
    (replicate rows cols a).get? row col = some a := by
  have hlt := index_lt hrow hcol
  simp [get?, replicate, hcol, hlt]

/-- There are entries inside the rectangle, and no others. -/
theorem isSome_get?_iff {t : Table α} {row col : Nat} :
    (t.get? row col).isSome ↔ row < t.rows ∧ col < t.cols := by
  unfold get?
  split
  · next hcol =>
    rw [isSome_getElem?, t.size_eq]
    refine ⟨fun hlt => ⟨Nat.lt_of_not_le fun hrow => ?_, hcol⟩, fun h => index_lt h.1 h.2⟩
    -- a row behind the last one would begin behind the last entry
    have := Nat.mul_le_mul_right t.cols hrow
    omega
  · next hcol => simp [hcol]

/-- A change is made exactly inside the rectangle, and keeps its size. -/
theorem modify?_eq_some {t t' : Table α} {row col : Nat} {f : α → α}
    (h : t.modify? row col f = some t') :
    (row < t.rows ∧ col < t.cols) ∧ t'.rows = t.rows ∧ t'.cols = t.cols := by
  unfold modify? at h
  split at h
  · next hin =>
    obtain rfl := Option.some.inj h
    exact ⟨hin, rfl, rfl⟩
  · exact absurd h nofun

theorem exists_modify? {t : Table α} {row col : Nat} (f : α → α) (hrow : row < t.rows)
    (hcol : col < t.cols) : ∃ t', t.modify? row col f = some t' := by
  rw [modify?, if_pos ⟨hrow, hcol⟩]
  exact ⟨_, rfl⟩

/-- A change is seen at its position and nowhere else. -/
theorem get?_of_modify? {t t' : Table α} {row col : Nat} {f : α → α}
    (h : t.modify? row col f = some t') (r c : Nat) :
    t'.get? r c = if r = row ∧ c = col then (t.get? r c).map f else t.get? r c := by
  unfold modify? at h
  split at h
  · next hin =>
    obtain rfl := Option.some.inj h
    unfold get?
    dsimp only
    -- in a column outside the table there is nothing before and nothing after
    by_cases hc : c < t.cols
    · simp only [if_pos hc, Array.getElem?_modify, index_inj hin.2 hc, @eq_comm Nat row r,
        @eq_comm Nat col c]
    · simp [if_neg hc]
  · exact absurd h nofun

end ChipAtlas.Table
