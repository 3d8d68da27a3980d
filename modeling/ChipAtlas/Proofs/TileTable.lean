import ChipAtlas.Proofs.Form.Tiles
import ChipAtlas.Proofs.Script.Attentive

/-!
# The table of tiles is complete

That every cell of the grid is listed is nowhere checked as such, but it is what the checks come to:
a table of cells that are in order is accepted exactly if each position of the grid is listed once
and the announced tiles add up to the declared number.

* `TileGrid.script_run_iff_complete` — which tables are accepted, and what the grid of an accepted
  table holds.
-/

namespace ChipAtlas

open Script

/-- What a grid that is read from a table has of the table. -/
structure TileTableText.Gives (t : TileTableText) (g : TileGrid) : Prop where
  /-- The tiles are inserted into the empty grid, in file order. -/
  foldlM : t.tiles.foldlM TileGrid.insert (.create t.maxCol t.maxRow t.header) = .ok g
  /-- The header declares the number of tiles. -/
  size : numberAt Text.count? t.header 7 = some g.tiles.size
  /-- A tile lies inside the grid, and its cell gives it. -/
  inside : ∀ tile ∈ g.tiles.toList, tile.x < g.maxCol ∧ tile.y < g.maxRow ∧
    ∃ here, g.cell tile.x tile.y = .ok here ∧ tile ∈ here
  /-- A cell gives the tiles that are listed with it, as many as its line announces. -/
  cell : ∀ c ∈ t.cells, g.cell c.x c.y = .ok c.tiles ∧
    numberAt Text.count? c.line 2 = some c.tiles.length
  /-- The tile of a line is a placeholder exactly if the flag of the line is zero. -/
  flag : ∀ c ∈ t.cells, ∀ line ∈ c.tileLines,
    ((Tile.ofLine c.x c.y line).flag = .placeholder ↔ numberAt Text.int32? line 8 = some 0)
  /-- A placeholder has no extent and no address. -/
  placeholder : ∀ tile ∈ g.tiles.toList, tile.flag = .placeholder → tile.IsBare

/-- The tiles of a cell lie at its position. -/
theorem CellText.at_iff {c d : CellText} {tile : Tile} (h : tile ∈ d.tiles) :
    tile.At c.x.toNat c.y.toNat ↔ d.position = c.position := by
  obtain ⟨line, -, rfl⟩ := List.mem_map.1 h
  rw [CellText.position, CellText.position, Prod.mk.injEq]
  rfl

/-- Cells at distinct positions keep their tiles to themselves. -/
theorem CellText.filter_tiles {cells : List CellText} (hnodup : (TileGrid.positions cells).Nodup)
    {c : CellText} (hc : c ∈ cells) :
    (cells.flatMap CellText.tiles).filter (fun tile => tile.At c.x.toNat c.y.toNat) = c.tiles := by
  induction cells with
  | nil => exact absurd hc List.not_mem_nil
  | cons d cells ih =>
    obtain ⟨hd, hnodup⟩ := List.nodup_cons.1 hnodup
    rw [List.flatMap_cons, List.filter_append]
    rcases List.mem_cons.1 hc with rfl | hc
    · -- the cell has been reached: all of its tiles, and none of those behind it
      have hown : c.tiles.filter (fun tile => tile.At c.x.toNat c.y.toNat) = c.tiles :=
        List.filter_eq_self.2 fun tile htile => decide_eq_true ((at_iff htile).2 rfl)
      have hothers : (cells.flatMap CellText.tiles).filter
          (fun tile => tile.At c.x.toNat c.y.toNat) = [] := by
        refine List.filter_eq_nil_iff.2 fun tile htile hat => hd ?_
        obtain ⟨e, he, htile⟩ := List.mem_flatMap.1 htile
        exact List.mem_map.2 ⟨e, he, (at_iff htile).1 (of_decide_eq_true hat)⟩
      rw [hown, hothers, List.append_nil]
    · -- another cell, which lies elsewhere
      have hothers : d.tiles.filter (fun tile => tile.At c.x.toNat c.y.toNat) = [] := by
        refine List.filter_eq_nil_iff.2 fun tile htile hat => hd ?_
        exact List.mem_map.2 ⟨c, hc, ((at_iff htile).1 (of_decide_eq_true hat)).symm⟩
      rw [hothers, List.nil_append, ih hnodup hc]

/-- The tiles of a complete table can be inserted into the empty grid. -/
theorem TileTableText.Complete.exists_grid {t : TileTableText} (hcomplete : t.Complete)
    (h : t.WellFormed) :
    ∃ g, t.tiles.foldlM TileGrid.insert (.create t.maxCol t.maxRow t.header) = .ok g := by
  obtain ⟨-, hinside⟩ := (once_iff h.number).1 hcomplete.once
  refine (TileGrid.holds_create _ _ _).exists_foldlM fun tile htile => ?_
  obtain ⟨c, hc, htile⟩ := List.mem_flatMap.1 htile
  obtain ⟨line, -, rfl⟩ := List.mem_map.1 htile
  exact hinside c hc

/-- A grid into which the tiles of a complete table are inserted has them as listed there. -/
theorem TileTableText.Complete.gives {t : TileTableText} {g : TileGrid} (hcomplete : t.Complete)
    (h : t.WellFormed)
    (hgrid : t.tiles.foldlM TileGrid.insert (.create t.maxCol t.maxRow t.header) = .ok g) :
    t.Gives g := by
  obtain ⟨hnodup, hinside⟩ := (once_iff h.number).1 hcomplete.once
  have hholds : g.Holds t.maxCol t.maxRow t.header t.tiles :=
    (TileGrid.holds_create t.maxCol t.maxRow t.header).foldlM hgrid
  -- what the grid gives for a cell are the tiles at its position, and those are its own
  have hcell : ∀ c ∈ t.cells, g.cell c.x c.y = .ok c.tiles := by
    intro c hc
    obtain ⟨hx, hy⟩ := hinside c hc
    rw [hholds.cell (UInt32.lt_iff_toNat_lt.2 hx) (UInt32.lt_iff_toNat_lt.2 hy)]
    exact congrArg Except.ok (CellText.filter_tiles hnodup hc)
  have hline : ∀ tile ∈ g.tiles.toList, ∃ c ∈ t.cells, ∃ line ∈ c.tileLines,
      tile = Tile.ofLine c.x c.y line := by
    rw [hholds.tiles_eq]
    intro tile htile
    obtain ⟨c, hc, htile⟩ := List.mem_flatMap.1 htile
    obtain ⟨line, hline, rfl⟩ := List.mem_map.1 htile
    exact ⟨c, hc, line, hline, rfl⟩
  refine ⟨hgrid, ?_, fun tile htile => ?_, fun c hc => ⟨hcell c hc, ?_⟩, fun c hc line hline => ?_,
    fun tile htile hflag => ?_⟩
  · have hsize : g.tiles.size = t.total := by
      rw [← Array.length_toList, hholds.tiles_eq, tiles, List.length_flatMap, total]
      simp only [CellText.tiles, List.length_map]
    rw [hsize, hcomplete.total_eq, h.declared_eq]
  · obtain ⟨c, hc, line, hline, rfl⟩ := hline tile htile
    obtain ⟨hx, hy⟩ := hinside c hc
    rw [hholds.maxCol_eq, hholds.maxRow_eq]
    exact ⟨UInt32.lt_iff_toNat_lt.2 hx, UInt32.lt_iff_toNat_lt.2 hy, c.tiles, hcell c hc,
      List.mem_map_of_mem hline⟩
  · rw [CellText.tiles, List.length_map, (h.cells c hc).number]
  · exact ((h.cells c hc).tileLines line hline).flag_eq_placeholder_iff
  · obtain ⟨c, hc, line, hline, rfl⟩ := hline tile htile
    have hform := (h.cells c hc).tileLines line hline
    exact hform.placeholder (hform.flag_eq_placeholder_iff.1 hflag)

namespace TileGrid

open Reading

/-- **Complete tables.** On a reading that shows a table whose header and cells are in order, the
script succeeds exactly if the table is complete; and whenever the script succeeds, on any reading,
it has been shown such a table, and gives the grid of its tiles. -/
theorem script_run_iff_complete :
    (∀ (t : TileTableText) (s final : Reading), t.WellFormed → s.Shows t.calls final →
      ((∃ g s', script.run s = .ok g s') ↔ t.Complete)) ∧
    ∀ (s s' : Reading) (g : TileGrid), script.run s = .ok g s' →
      ∃ (t : TileTableText) (final : Reading), t.WellFormed ∧ t.Complete ∧ s.Shows t.calls final ∧
        s'.Agrees final ∧ t.Gives g := by
  refine ⟨?_, ?_⟩
  · intro t s final h hshows
    have hsim := simulates_walk script t.calls s final hshows
    refine ⟨?_, ?_⟩
    · rintro ⟨g, s', hrun⟩
      -- an incomplete table is refused, and a refusal is no success
      refine Classical.byContradiction fun hincomplete => ?_
      obtain ⟨cause, rest, hrefuses⟩ := script_refuses h hincomplete []
      rw [List.append_nil] at hrefuses
      rw [hrefuses] at hsim
      obtain ⟨place, s'', hviolation⟩ := hsim
      exact absurd (hrun.symm.trans hviolation) Stateful.ok_ne_error
    · intro hcomplete
      obtain ⟨g, hgrid⟩ := hcomplete.exists_grid h
      have hwalk := (script_accepts t.calls [] g).2
        ⟨t, ⟨hgrid, h, hcomplete⟩, (List.append_nil _).symm⟩
      rw [hwalk] at hsim
      obtain ⟨s', final', hrun, -⟩ := hsim
      exact ⟨g, s', hrun⟩
  · intro s s' g hrun
    -- whatever was read, it was read from a row of calls, and the row is a table
    obtain ⟨row, final, hwalk, hshows, hfinal⟩ := exists_walk_of_run attentive_script hrun
    obtain ⟨t, ⟨hgrid, h, hcomplete⟩, rfl⟩ := (script_accepts row [] g).1 hwalk
    rw [List.append_nil] at hshows
    exact ⟨t, final, h, hcomplete, hshows, hfinal, hcomplete.gives h hgrid⟩

/-- A table of two cells, the second of which is listed first, with a placeholder. -/
def swappedCells : TileTableText where
  header := ["bil_info", "2", "1", "0", "0", "0", "0", "2", "3"]
  cells := [
    ⟨["1", "0", "2"], [["t1", "plb", "1", "0", "1", "2", "30", "7", "-1"],
      ["t2", "pad", "1", "0", "0", "0", "0", "0", "0"]]⟩,
    ⟨["0", "0", "0"], []⟩]

theorem script_run_iff_complete_swappedCells :
    swappedCells.WellFormed ∧ swappedCells.Complete ∧
      ∃ trace w final g s', perform swappedCells.calls { keys := some mixedStart } = .ok trace w ∧
        Reading.Shows { Reading.ofBytes (Text.utf8 w.text) with keys := some mixedStart }
          swappedCells.calls final ∧
        script.run { Reading.ofBytes (Text.utf8 w.text) with keys := some mixedStart } = .ok g s' ∧
        ∃ (t : TileTableText), t.WellFormed ∧ t.Complete ∧ t.Gives g := by
  obtain ⟨haccepts, hgives⟩ := script_run_iff_complete
  have hform : swappedCells.WellFormed := by decide +kernel
  have hcomplete : swappedCells.Complete := by decide +kernel
  have hadm : ∀ call ∈ swappedCells.calls, call.Admissible := by decide +kernel
  have hwritable : ∀ call ∈ swappedCells.calls, call.Writable := by decide +kernel
  obtain ⟨trace, w, hperform⟩ :=
    exists_perform hadm hwritable (w := { keys := some mixedStart }) rfl
  obtain ⟨final, hshows, -⟩ := shows_of_perform hadm hperform (nofun : Roomy none)
  obtain ⟨g, s', hrun⟩ := (haccepts _ _ _ hform hshows).2 hcomplete
  obtain ⟨t, -, ht, htcomplete, -, -, htg⟩ := hgives _ _ _ hrun
  exact ⟨hform, hcomplete, trace, w, final, g, s', hperform, hshows, hrun, t, ht, htcomplete, htg⟩

end TileGrid

end ChipAtlas
