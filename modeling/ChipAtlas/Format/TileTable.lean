import ChipAtlas.Reading.Script
import ChipAtlas.Tiles.Grid

/-!
# The table of tiles

The header of the table gives the size of the grid and the number of tiles. Then come as many cells
as the grid has, in any order: a line with the position of the cell and the number of its tiles, and
the tiles, which repeat the position and are each closed by a blank line.

That every cell is listed is not checked as such. It follows: there are as many cells as positions,
none is outside the grid, and none is listed twice.
-/

namespace ChipAtlas

namespace Tile

/-- The number of fields in the line of a tile. -/
def lineFields : Nat := 9

/-- One tile of the cell at a position. -/
def script (x y : UInt32) : Script Tile := do
  let line ← Script.fields [0, 1]
  Script.expectLength line lineFields
  let tx ← Script.number Text.uint32? line 2
  let ty ← Script.number Text.uint32? line 3
  -- the tile repeats the position of its cell
  if tx ≠ x ∨ ty ≠ y then
    .refuse (.indexEcho s!"x{x.toNat}y{y.toNat}" s!"x{tx.toNat}y{ty.toNat}")
  let width ← Script.number Text.uint32? line 4
  let height ← Script.number Text.uint32? line 5
  let frameBase ← Script.number Text.uint32? line 6
  let bitBase ← Script.number Text.uint32? line 7
  let flag := TileFlag.ofRaw (← Script.number Text.int32? line 8)
  if flag = .placeholder ∧ (width ≠ 0 ∨ height ≠ 0 ∨ frameBase ≠ 0 ∨ bitBase ≠ 0) then
    .refuse .placeholderExtent
  Script.blankLine
  -- the line has all its fields, so these are there
  let name ← Script.fieldAt line 0
  let kind ← Script.fieldAt line 1
  return { name, kind, x, y, width, height, frameBase, bitBase, flag }

end Tile

namespace TileGrid

/-- Inserts a tile and reports if it takes over a name. -/
def insertScript (g : TileGrid) (t : Tile) : Script TileGrid := do
  let grown ← Script.checked (g.insert t)
  match g.takeOver? t with
  | some event => .note event (.done grown)
  | none => return grown

/-- The state of reading cells: the grid so far, the cells listed so far, and their tiles in all. -/
structure Listing where
  grid : TileGrid
  seen : Table Bool
  total : Nat

/-- One cell with its tiles. -/
def cellScript (s : Listing) : Script Listing := do
  let line ← Script.fields []
  let x ← Script.number Text.uint32? line 0
  let y ← Script.number Text.uint32? line 1
  let n ← Script.count line 2
  -- only a position inside the grid has a mark that tells whether it has been listed
  if s.grid.contains x.toNat y.toNat = false then .refuse (.outsideGrid x y)
  if ← Script.checked (entryAt s.seen x.toNat y.toNat) then .refuse (.duplicateCell x y)
  let seen ← Script.checked (modifyAt s.seen x.toNat y.toNat fun _ => true)
  let grid ← Script.foldTimes n (fun _ g => do g.insertScript (← Tile.script x y)) s.grid
  return { grid, seen, total := s.total + n }

/-- The table of tiles. -/
def script : Script TileGrid := do
  .enter .tiles (.done ())
  let header ← Script.fields [0]
  Script.expectTag header "bil_info"
  let maxCol ← Script.number Text.uint32? header 1
  let maxRow ← Script.number Text.uint32? header 2
  let declared ← Script.count header 7
  -- the trailer has this many names, but a header without the number is refused at once
  let _ ← Script.count header 8
  let start : Listing :=
    { grid := .create maxCol maxRow header
      seen := .replicate maxRow.toNat maxCol.toNat false
      total := 0 }
  -- as many cells as positions are read, and none twice, so each is listed once
  let listing ← Script.foldTimes (maxRow.toNat * maxCol.toNat) (fun i s => do
    .setRecord i (.done ())
    cellScript s) start
  if listing.total ≠ declared then .refuse (.totalMismatch declared listing.total)
  .note (.tilesRead maxCol maxRow listing.total) (.done ())
  return listing.grid

end TileGrid

end ChipAtlas
