import ChipAtlas.Bits.ConfigBit
import ChipAtlas.Text.Lowercase
import ChipAtlas.Tiles.Grid

/-!
# Fuse addresses

A configuration bit of a tile is stored in a fuse, addressed by a frame row and a bit column. The
address is that of the tile plus the offset of the bit; for a relocated bit it is that of the
template of the wanted kind at the offset position. Bits of the phase-locked loops have no fuse.

Rows and columns are 32-bit words and wrap around.

* `TileGrid.resolve` — the fuse of a bit of a tile;
* `correctColumn` — the column of a fuse when the reserved columns are left out.
-/

namespace ChipAtlas

/-- Where a configuration bit of a tile is stored. -/
inductive Resolution where
  | fuse (row col : UInt32)
  | notApplicable
  | unresolved (remap : UnresolvedRemap)
  deriving DecidableEq, Repr

/-- The fuse of a bit in the tile that holds it. -/
def ConfigBit.fuseIn (b : ConfigBit) (t : Tile) : Resolution :=
  .fuse (t.frameBase + b.frame) (t.bitBase + b.bit)

/-- Where a configuration bit of a tile is stored. -/
def TileGrid.resolve (g : TileGrid) (b : ConfigBit) (owner : Tile) : Checked Resolution :=
  -- whether a bit has a fuse at all is asked before whether it is relocated
  if b.pllInfo then pure .notApplicable
  else if b.remap then do
    -- the offsets are signed, so the position may lie on any side of the grid
    let x : Int := owner.x.toNat + b.xoff.toInt
    let y : Int := owner.y.toNat + b.yoff.toInt
    let kind := Text.lowercase b.kind
    match ← g.template x y kind with
    | some holder => pure (b.fuseIn holder)
    | none => pure (.unresolved ⟨b.name, owner.name, x, y, kind⟩)
  else pure (b.fuseIn owner)

/-- The first columns of the reserved groups, from left to right. -/
def reservedColumns : List UInt32 := [974, 2926]

/-- The number of columns in a reserved group. -/
def reservedWidth : UInt32 := 6

/-- Moves a column past the reserved groups, from left to right: a group is met by the column as the
groups before it have moved it. -/
def correctColumn (col : UInt32) : UInt32 :=
  reservedColumns.foldl (fun col first => if first ≤ col then col + reservedWidth else col) col

end ChipAtlas
