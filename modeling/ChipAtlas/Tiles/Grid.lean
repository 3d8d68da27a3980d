import ChipAtlas.Data.OrderedMap
import ChipAtlas.Data.SortedMap
import ChipAtlas.Data.Table
import ChipAtlas.Event
import ChipAtlas.Tiles.Tile

/-!
# The tile grid

The tiles of a chip are numbered in the order in which they are inserted. Three indices refer to
them by number: the tiles of each cell, the templates of each cell by kind, and all tiles by name.
A template replaces an earlier template of its kind in its cell; a tile takes over the name of an
earlier tile; no cell forgets a tile.

Every look-up is checked against the size of its table.

* `TileGrid.insert` — one more tile;
* `TileGrid.named`, `TileGrid.cell`, `TileGrid.template` — look-ups by name, cell and kind;
* `TileGrid.toJson` — the grid as it is exported, in the layout of either variant.
-/

namespace ChipAtlas

/-- The tiles of a chip and where they are. Tables have a row for each `y` and a column for each
`x`. -/
structure TileGrid where
  header : Record
  maxCol : UInt32
  maxRow : UInt32
  tiles : Array Tile
  cells : Table (List Nat)
  templates : Table (SortedMap Nat)
  byName : OrderedMap String Nat
  deriving DecidableEq, Repr

namespace TileGrid

/-- A grid without tiles. -/
def create (maxCol maxRow : UInt32) (header : Record) : TileGrid where
  header
  maxCol
  maxRow
  tiles := #[]
  cells := .replicate maxRow.toNat maxCol.toNat []
  templates := .replicate maxRow.toNat maxCol.toNat ∅
  byName := ∅

/-- Whether a position lies inside the grid. -/
def contains (g : TileGrid) (x y : Int) : Bool :=
  0 ≤ x && 0 ≤ y && x < g.maxCol.toNat && y < g.maxRow.toNat

/-- Changes the entry of a cell in a table. -/
def modifyAt {α : Type} (table : Table α) (x y : Nat) (f : α → α) : Checked (Table α) :=
  match table.modify? y x f with
  | some table => .ok table
  | none => .error (.cell x y)

/-- The entry of a cell in a table. -/
def entryAt {α : Type} (table : Table α) (x y : Nat) : Checked α :=
  match table.get? y x with
  | some a => .ok a
  | none => .error (.cell x y)

/-- A tile by its number. -/
def tile (g : TileGrid) (id : Nat) : Checked Tile :=
  match g.tiles[id]? with
  | some t => .ok t
  | none => .error (.tile id)

/-- Inserts a tile under the next number. Its cell has to lie inside the grid. -/
def insert (g : TileGrid) (t : Tile) : Checked TileGrid := do
  let id := g.tiles.size
  -- the cell lists its tiles in the order in which they are inserted
  let cells ← modifyAt g.cells t.x.toNat t.y.toNat (· ++ [id])
  -- a template takes the place of an earlier one of its kind
  let templates ←
    if t.flag = .template then
      modifyAt g.templates t.x.toNat t.y.toNat (·.insert t.kind id)
    else pure g.templates
  return { g with
    tiles := g.tiles.push t
    cells
    templates
    byName := g.byName.insert t.name id }

/-- The report that inserting a tile gives, if its name is taken. -/
def takeOver? (g : TileGrid) (t : Tile) : Option Event :=
  (g.byName.get? t.name).map (.nameTakenOver t.name)

/-- The last tile inserted under a name. -/
def named (g : TileGrid) (name : String) : Checked (Option Tile) :=
  match g.byName.get? name with
  | some id => some <$> g.tile id
  | none => pure none

/-- The tiles of a cell, in the order of their numbers. -/
def cell (g : TileGrid) (x y : UInt32) : Checked (List Tile) := do
  (← entryAt g.cells x.toNat y.toNat).mapM g.tile

/-- The template of a kind at a position, which may lie outside the grid. -/
def template (g : TileGrid) (x y : Int) (kind : String) : Checked (Option Tile) :=
  -- offsets may lead out of the grid, where there are no templates
  if g.contains x y then do
    match (← entryAt g.templates x.toNat y.toNat).get? kind with
    | some id => some <$> g.tile id
    | none => pure none
  else pure none

/-! ### Export -/

/-- The tiles by name, each under the name it was inserted under last. -/
def toCurrentJson (g : TileGrid) : Checked Json := do
  let members ← g.byName.entries.mapM fun (name, id) => do
    return (name, (← g.tile id).toCurrentJson)
  return .object members

/-- A cell with its tiles. -/
def cellJson (g : TileGrid) (x y : UInt32) : Checked Json := do
  let tiles ← g.cell x y
  return .object [
    ("x", .ofUInt32 x),
    ("y", .ofUInt32 y),
    ("loc", .text s!"x{x.toNat}y{y.toNat}"),
    ("val", .list (tiles.map Tile.toLegacyJson))]

/-- The rows of cells, each cell with its tiles. -/
def toLegacyJson (g : TileGrid) : Checked Json := do
  let rows ← (List.range g.maxRow.toNat).mapM fun y => do
    let cells ← (List.range g.maxCol.toNat).mapM fun x => g.cellJson (.ofNat x) (.ofNat y)
    return .list cells
  return .list rows

/-- The grid as it is exported, in the layout of a variant. -/
def toJson (g : TileGrid) : Variant → Checked Json
  | .current => g.toCurrentJson
  | .legacy => g.toLegacyJson

end TileGrid

end ChipAtlas
