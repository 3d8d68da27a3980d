import ChipAtlas.Proofs.Fuses.FuseMap
import ChipAtlas.Proofs.Text.Lines

/-!
# Fuse maps as pictures

The text of a fuse map is a picture: one line for each row and one mark for each column, from zero
up to the last row and the last column that have a hit. The two may come from different fuses, so
the corner of the picture need not be hit.

A mark tells a count up to nine, and that a count is above nine. Within these limits nothing is
lost: the lines of the text give the size of the picture, the size gives the places of the marks,
and a fuse outside the picture has no hit.

* `FuseMap.mark_eq_point_iff`, `FuseMap.mark_eq_digit_iff`, `FuseMap.mark_eq_hash_iff` — what the
  marks say;
* `FuseMap.Pictures` — lines that show a fuse map, and `FuseMap.pictures_lines` — that its own do;
* `FuseMap.render_pictures` — the text of every fuse map with a hit.
-/

namespace ChipAtlas.FuseMap

open Text (linesOf utf8)

variable {m m' : FuseMap} {maxRow maxCol row col count : UInt32}

/-! ### Marks -/

/-- The marks are the point, the digits in their order and the hash. -/
theorem toNat_mark (count : UInt32) : (mark count).toNat =
    if count.toNat = 0 then '.'.toNat
    else if count.toNat ≤ 9 then '0'.toNat + count.toNat
    else '#'.toNat := by
  have hzero : count = 0 ↔ count.toNat = 0 := UInt32.toNat_inj.symm
  have hnine : count ≤ 9 ↔ count.toNat ≤ 9 := UInt32.le_iff_toNat_le
  simp only [mark, hzero, hnine]
  split_ifs with h₀ h₉
  · rfl
  · exact Nat.toNat_digitChar_of_lt_ten (Nat.lt_succ_of_le h₉)
  · rfl

theorem mark_eq_point_iff : mark count = '.' ↔ count.toNat = 0 := by
  rw [← Char.toNat_inj, toNat_mark]
  simp only [Char.reduceToNat]
  split_ifs <;> omega

theorem mark_eq_digit_iff {n : Nat} (hpos : 1 ≤ n) (hle : n ≤ 9) :
    mark count = Nat.digitChar n ↔ count.toNat = n := by
  rw [← Char.toNat_inj, toNat_mark, Nat.toNat_digitChar_of_lt_ten (by omega)]
  simp only [Char.reduceToNat]
  split_ifs <;> omega

theorem mark_eq_hash_iff : mark count = '#' ↔ 10 ≤ count.toNat := by
  rw [← Char.toNat_inj, toNat_mark]
  simp only [Char.reduceToNat]
  split_ifs <;> omega

theorem mark_ne_lineFeed (count : UInt32) : mark count ≠ '\n' := by
  rw [Ne, ← Char.toNat_inj, toNat_mark]
  simp only [Char.reduceToNat]
  split_ifs <;> omega

/-- Up to nine, a mark tells its count. -/
theorem mark_inj {n k : UInt32} (hn : n.toNat ≤ 9) (hk : k.toNat ≤ 9) :
    mark n = mark k ↔ n = k := by
  rw [← Char.toNat_inj, toNat_mark, toNat_mark, ← UInt32.toNat_inj]
  simp only [Char.reduceToNat]
  split_ifs <;> omega

/-! ### Maps with hits -/

/-- A map with at least one hit, whose entries all stand for hits. -/
structure HasHits (m : FuseMap) : Prop where
  ne_nil : m.hits.toList ≠ []
  pos : ∀ e ∈ m.hits.toList, 0 < e.2.toNat

/-- A fuse without an entry has the count zero, and only such a fuse has. -/
theorem HasHits.getElem?_eq (h : m.HasHits) (row col : UInt32) :
    m.hits[(row, col)]? =
      if (m.get row col).toNat = 0 then none else some (m.get row col) := by
  rw [get, Std.TreeMap.getD_eq_getD_getElem?]
  cases hget : m.hits[(row, col)]? with
  | none => rfl
  | some count =>
    have hpos : 0 < count.toNat :=
      h.pos ((row, col), count) (Std.TreeMap.mem_toList_iff_getElem?_eq_some.2 hget)
    rw [Option.getD_some, if_neg (Nat.ne_of_gt hpos)]

theorem HasHits.notMem_iff (h : m.HasHits) : (row, col) ∉ m.hits ↔ (m.get row col).toNat = 0 := by
  rw [Std.TreeMap.mem_iff_isSome_getElem?, h.getElem?_eq]
  split <;> simp_all

theorem HasHits.exists_getElem?_iff (h : m.HasHits) {P : Nat → Prop} (hP : ¬ P 0) :
    (∃ count, m.hits[(row, col)]? = some count ∧ P count.toNat) ↔ P (m.get row col).toNat := by
  rw [h.getElem?_eq]
  split
  · next hzero => simp [hzero, hP]
  · simp

/-- The last row with a hit, and the last column with one. -/
structure Bounds (m : FuseMap) (maxRow maxCol : UInt32) : Prop where
  row : ∃ col, (maxRow, col) ∈ m.hits
  col : ∃ row, (row, maxCol) ∈ m.hits
  le : ∀ fuse ∈ m.hits, fuse.1 ≤ maxRow ∧ fuse.2 ≤ maxCol

/-- The greatest coordinate of the fuses of a map that has some. -/
theorem exists_max (h : m.hits.toList ≠ []) (coordinate : UInt32 × UInt32 → UInt32) :
    ∃ fuse ∈ m.hits, (∀ other ∈ m.hits, coordinate other ≤ coordinate fuse) ∧
      (m.hits.keys.map fun fuse => (coordinate fuse).toNat).max? =
        some (coordinate fuse).toNat := by
  have hkeys : m.hits.keys ≠ [] := by
    rw [← Std.TreeMap.map_fst_toList_eq_keys]
    exact mt List.map_eq_nil_iff.1 h
  obtain ⟨greatest, hmax⟩ := Option.isSome_iff_exists.1 (List.isSome_max?_of_ne_nil
    (mt List.map_eq_nil_iff.1 hkeys : m.hits.keys.map (fun f => (coordinate f).toNat) ≠ []))
  obtain ⟨hmem, hle⟩ := List.max?_eq_some_iff.1 hmax
  obtain ⟨fuse, hfuse, rfl⟩ := List.mem_map.1 hmem
  refine ⟨fuse, Std.TreeMap.mem_keys.1 hfuse, fun other hother => ?_, hmax⟩
  rw [UInt32.le_iff_toNat_le]
  exact hle _ (List.mem_map_of_mem (Std.TreeMap.mem_keys.2 hother))

/-! ### Lines of marks -/

/-- The lines of the rows up to a row, each with the marks of the columns up to a column. -/
def lines (m : FuseMap) (maxRow maxCol : Nat) : List String :=
  (List.range (maxRow + 1)).map (m.renderRow maxCol)

/-- The text of a map with hits consists of the lines up to its last row and column. -/
theorem exists_bounds (h : m.hits.toList ≠ []) :
    ∃ maxRow maxCol, m.Bounds maxRow maxCol ∧
      m.render = String.join ((m.lines maxRow.toNat maxCol.toNat).map (· ++ "\n")) := by
  obtain ⟨lowest, hlowest, hrow, hmaxRow⟩ := exists_max h Prod.fst
  obtain ⟨rightmost, hrightmost, hcol, hmaxCol⟩ := exists_max h Prod.snd
  refine ⟨lowest.1, rightmost.2, ⟨⟨_, hlowest⟩, ⟨_, hrightmost⟩, fun fuse hfuse =>
    ⟨hrow fuse hfuse, hcol fuse hfuse⟩⟩, ?_⟩
  rw [render, hmaxRow, hmaxCol, lines, List.map_map]
  rfl

theorem length_renderRow (m : FuseMap) (maxCol row : Nat) :
    (m.renderRow maxCol row).length = maxCol + 1 := by
  rw [renderRow, String.length_ofList, List.length_map, List.length_range]

/-- The marks of a row stand in the places of their columns. -/
theorem getElem?_renderRow (hcol : col ≤ maxCol) :
    (m.renderRow maxCol.toNat row.toNat).toList[col.toNat]? = some (mark (m.get row col)) := by
  rw [UInt32.le_iff_toNat_le] at hcol
  rw [renderRow, String.toList_ofList, List.getElem?_map,
    List.getElem?_range (Nat.lt_succ_of_le hcol), Option.map_some, UInt32.ofNat_toNat,
    UInt32.ofNat_toNat]

theorem getElem?_lines (hrow : row ≤ maxRow) (maxCol : Nat) :
    (m.lines maxRow.toNat maxCol)[row.toNat]? = some (m.renderRow maxCol row.toNat) := by
  rw [UInt32.le_iff_toNat_le] at hrow
  rw [lines, List.getElem?_map, List.getElem?_range (Nat.lt_succ_of_le hrow), Option.map_some]

theorem lineFeed_notMem_renderRow (m : FuseMap) (maxCol row : Nat) :
    '\n' ∉ (m.renderRow maxCol row).toList := by
  rw [renderRow, String.toList_ofList, List.mem_map]
  rintro ⟨col, -, hmark⟩
  exact mark_ne_lineFeed _ hmark

/-- The text of the lines is split into the lines. -/
theorem linesOf_lines (m : FuseMap) (maxRow maxCol : Nat) :
    linesOf (utf8 (String.join ((m.lines maxRow maxCol).map (· ++ "\n")))) =
      (m.lines maxRow maxCol).map .text := by
  refine Text.linesOf_terminated fun line hline => ?_
  obtain ⟨row, -, rfl⟩ := List.mem_map.1 hline
  exact lineFeed_notMem_renderRow m maxCol row

/-! ### Pictures -/

/-- Lines that show a fuse map, row by row and column by column, from zero up to the last row and
the last column that have a hit. -/
structure Pictures (m : FuseMap) (maxRow maxCol : UInt32) (lines : List String) : Prop where
  bounds : m.Bounds maxRow maxCol
  length_lines : lines.length = maxRow.toNat + 1
  length_line : ∀ line ∈ lines, line.length = maxCol.toNat + 1
  /-- The mark in the place of a fuse is a point if the fuse is not hit, the digit of the count if
  this is at most nine, and a hash if it is greater. -/
  mark : ∀ row ≤ maxRow, ∀ col ≤ maxCol, ∃ line c,
    lines[row.toNat]? = some line ∧ line.toList[col.toNat]? = some c ∧
    (c = '.' ↔ (row, col) ∉ m.hits) ∧
    (∀ n, 1 ≤ n → n ≤ 9 → (c = Nat.digitChar n ↔
      ∃ count, m.hits[(row, col)]? = some count ∧ count.toNat = n)) ∧
    (c = '#' ↔ ∃ count, m.hits[(row, col)]? = some count ∧ 10 ≤ count.toNat)

/-- **The lines of a map show it.** -/
theorem pictures_lines (h : m.HasHits) (hbounds : m.Bounds maxRow maxCol) :
    m.Pictures maxRow maxCol (m.lines maxRow.toNat maxCol.toNat) where
  bounds := hbounds
  length_lines := by rw [lines, List.length_map, List.length_range]
  length_line line hline := by
    obtain ⟨row, -, rfl⟩ := List.mem_map.1 hline
    exact length_renderRow m _ row
  mark row hrow col hcol := by
    refine ⟨_, _, getElem?_lines hrow _, getElem?_renderRow hcol, ?_, fun n hpos hle => ?_, ?_⟩
    · rw [mark_eq_point_iff, h.notMem_iff]
    · rw [mark_eq_digit_iff hpos hle, h.exists_getElem?_iff (P := (· = n)) (by omega)]
    · rw [mark_eq_hash_iff, h.exists_getElem?_iff (P := (10 ≤ ·)) (by omega)]

/-- A fuse outside the bounds of a map is not hit. -/
theorem Bounds.get_eq_zero (hbounds : m.Bounds maxRow maxCol)
    (h : ¬ (row ≤ maxRow ∧ col ≤ maxCol)) : m.get row col = 0 :=
  Std.TreeMap.getD_eq_fallback fun hmem => h (hbounds.le _ hmem)

/-- Counts up to nine are known from the lines of a map. -/
theorem get_eq_of_lines_eq (hm : ∀ row col, (m.get row col).toNat ≤ 9)
    (hm' : ∀ row col, (m'.get row col).toNat ≤ 9)
    (hlines : m.lines maxRow.toNat maxCol.toNat = m'.lines maxRow.toNat maxCol.toNat)
    (hrow : row ≤ maxRow) (hcol : col ≤ maxCol) : m.get row col = m'.get row col := by
  have hline : m.renderRow maxCol.toNat row.toNat = m'.renderRow maxCol.toNat row.toNat := by
    have := getElem?_lines (m := m) hrow maxCol.toNat
    rw [hlines, getElem?_lines hrow] at this
    exact (Option.some.inj this).symm
  have hmark : (m.renderRow maxCol.toNat row.toNat).toList[col.toNat]? = some (mark _) :=
    getElem?_renderRow hcol
  rw [hline, getElem?_renderRow hcol] at hmark
  exact ((mark_inj (hm' row col) (hm row col)).1 (Option.some.inj hmark)).symm

/-- The lines of a map tell where its rows and its columns end. -/
theorem bounds_eq_of_lines_eq {maxRow' maxCol' : UInt32}
    (h : m.lines maxRow.toNat maxCol.toNat = m'.lines maxRow'.toNat maxCol'.toNat) :
    maxRow = maxRow' ∧ maxCol = maxCol' := by
  have hrows := congrArg List.length h
  rw [lines, lines, List.length_map, List.length_map, List.length_range, List.length_range] at hrows
  -- the first line is as long as the others
  have hfirst : m.renderRow maxCol.toNat 0 = m'.renderRow maxCol'.toNat 0 := by
    have := congrArg List.head? h
    rwa [lines, lines, List.range_succ_eq_map, List.range_succ_eq_map, List.map_cons, List.map_cons,
      List.head?_cons, List.head?_cons, Option.some.injEq] at this
  have hcols := congrArg String.length hfirst
  rw [length_renderRow, length_renderRow] at hcols
  exact ⟨UInt32.toNat_inj.1 (Nat.succ.inj hrows), UInt32.toNat_inj.1 (Nat.succ.inj hcols)⟩

/-- No count is above nine. -/
def Small (m : FuseMap) : Prop := ∀ e ∈ m.hits.toList, e.2.toNat ≤ 9

theorem Small.get_le (h : m.Small) (row col : UInt32) : (m.get row col).toNat ≤ 9 := by
  rw [get, Std.TreeMap.getD_eq_getD_getElem?]
  cases hget : m.hits[(row, col)]? with
  | none => exact Nat.zero_le 9
  | some count => exact h ((row, col), count) (Std.TreeMap.mem_toList_iff_getElem?_eq_some.2 hget)

/-- **Small counts are known from the text.** -/
theorem toList_eq_of_render_eq (h : m.HasHits) (h' : m'.HasHits) (hsmall : m.Small)
    (hsmall' : m'.Small) (hrender : m.render = m'.render) : m.hits.toList = m'.hits.toList := by
  obtain ⟨maxRow, maxCol, hbounds, htext⟩ := exists_bounds h.ne_nil
  obtain ⟨maxRow', maxCol', hbounds', htext'⟩ := exists_bounds h'.ne_nil
  -- the same text is split into the same lines
  have hlines : m.lines maxRow.toNat maxCol.toNat = m'.lines maxRow'.toNat maxCol'.toNat := by
    have := linesOf_lines m maxRow.toNat maxCol.toNat
    rw [← htext, hrender, htext', linesOf_lines] at this
    exact ((List.map_inj_right fun _ _ => Text.Line.text.inj).1 this).symm
  obtain ⟨rfl, rfl⟩ := bounds_eq_of_lines_eq hlines
  have hget (row col : UInt32) : m.get row col = m'.get row col := by
    by_cases hin : row ≤ maxRow ∧ col ≤ maxCol
    · exact get_eq_of_lines_eq hsmall.get_le hsmall'.get_le hlines hin.1 hin.2
    · rw [hbounds.get_eq_zero hin, hbounds'.get_eq_zero hin]
  refine (Std.TreeMap.Equiv.of_forall_constGet?_eq fun fuse => ?_).toList_eq
  rw [h.getElem?_eq, h'.getElem?_eq, hget]

/-- **The text of a fuse map is its picture.** The text of a map with at least one hit, all of whose
entries stand for hits, consists of lines that show the map. Two such maps without a count above
nine have the same hits if they have the same text. -/
theorem render_pictures (m : FuseMap) (h : m.HasHits) :
    (∃ maxRow maxCol lines, m.Pictures maxRow maxCol lines ∧
      m.render = String.join (lines.map (· ++ "\n")) ∧
      linesOf (utf8 m.render) = lines.map .text) ∧
    ∀ m' : FuseMap, m'.HasHits → m.Small → m'.Small → m.render = m'.render →
      m.hits.toList = m'.hits.toList := by
  refine ⟨?_, fun m' h' hsmall hsmall' => toList_eq_of_render_eq h h' hsmall hsmall'⟩
  obtain ⟨maxRow, maxCol, hbounds, htext⟩ := exists_bounds h.ne_nil
  refine ⟨maxRow, maxCol, _, pictures_lines h hbounds, htext, ?_⟩
  rw [htext, linesOf_lines]

/-- A map whose last row and last column are those of different fuses. -/
def scattered (count : UInt32) : FuseMap where
  hits := .ofList [((0, 2), 1), ((1, 0), 2), ((1, 1), count)] fuseOrder

/-- The same hits, counted in another order. -/
def scatteredBack : FuseMap where
  hits := .ofList [((1, 1), 9), ((1, 0), 2), ((0, 2), 1)] fuseOrder

theorem render_pictures_scattered :
    (scattered 12).HasHits ∧ (scattered 12).render = "..1\n2#.\n" ∧
    (∃ maxRow maxCol lines, (scattered 12).Pictures maxRow maxCol lines ∧
      linesOf (utf8 "..1\n2#.\n") = lines.map .text) ∧
    (scattered 9).HasHits ∧ scatteredBack.HasHits ∧ (scattered 9).Small ∧ scatteredBack.Small ∧
    (scattered 9).render = scatteredBack.render ∧
    (scattered 9).hits.toList = scatteredBack.hits.toList := by
  have htwelve : (scattered 12).hits.toList = [((0, 2), 1), ((1, 0), 2), ((1, 1), 12)] := by
    decide +kernel
  have hnine : (scattered 9).hits.toList = [((0, 2), 1), ((1, 0), 2), ((1, 1), 9)] := by
    decide +kernel
  have hback : scatteredBack.hits.toList = [((0, 2), 1), ((1, 0), 2), ((1, 1), 9)] := by
    decide +kernel
  have hhits : (scattered 12).HasHits := ⟨by simp [htwelve], by simp [htwelve]⟩
  have hhits' : (scattered 9).HasHits := ⟨by simp [hnine], by simp [hnine]⟩
  have hhits'' : scatteredBack.HasHits := ⟨by simp [hback], by simp [hback]⟩
  have hsmall : (scattered 9).Small := by simp [Small, hnine]
  have hsmall' : scatteredBack.Small := by simp [Small, hback]
  have hrender : (scattered 12).render = "..1\n2#.\n" := by decide +kernel
  have hsame : (scattered 9).render = scatteredBack.render := by decide +kernel
  obtain ⟨maxRow, maxCol, lines, hpictures, -, hlines⟩ := (render_pictures _ hhits).1
  exact ⟨hhits, hrender, ⟨maxRow, maxCol, lines, hpictures, hrender ▸ hlines⟩, hhits', hhits'',
    hsmall, hsmall', hsame, (render_pictures _ hhits').2 _ hhits'' hsmall hsmall' hsame⟩

end ChipAtlas.FuseMap
