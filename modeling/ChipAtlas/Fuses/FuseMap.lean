import ChipAtlas.Bits.Catalog
import ChipAtlas.Fuses.Address
import Std.Data.TreeMap

/-!
# Fuse maps

A fuse map counts how many configuration bits of the placed tiles are stored in each fuse. Every
tile that is not a placeholder brings the bits of the catalog of its kind; a bit without a fuse is
counted apart, and a relocated bit that is not found is listed.

* `FuseMap.build` — the fuse map of a grid and its catalogs, with the events of the count;
* `FuseMap.render` — the map as text, one line a row.
-/

namespace ChipAtlas

/-- The order of fuses: by row, then by column. -/
def fuseOrder : UInt32 × UInt32 → UInt32 × UInt32 → Ordering :=
  compareLex (compareOn Prod.fst) (compareOn Prod.snd)

/-- Counts by fuse, in the order of fuses. -/
abbrev Hits := Std.TreeMap (UInt32 × UInt32) UInt32 fuseOrder

/-- How many configuration bits are stored in each fuse. -/
structure FuseMap where
  hits : Hits := {}
  notApplicable : Nat := 0
  unresolved : Array UnresolvedRemap := #[]

namespace FuseMap

/-- The count of a fuse. -/
def get (m : FuseMap) (row col : UInt32) : UInt32 := m.hits.getD (row, col) 0

/-- Counts one bit more in a fuse. -/
def hit (m : FuseMap) (row col : UInt32) : FuseMap :=
  { m with hits := m.hits.insert (row, col) (m.get row col + 1) }

/-- Counts one bit, with its column corrected if asked for. -/
def add (correct : Bool) (m : FuseMap) : Resolution → FuseMap
  | .fuse row col => m.hit row (if correct then correctColumn col else col)
  | .notApplicable => { m with notApplicable := m.notApplicable + 1 }
  | .unresolved remap => { m with unresolved := m.unresolved.push remap }

/-- The placed bits: every bit of every tile that is not a placeholder, by the catalog of its
kind. -/
def placedBits (g : TileGrid) (catalogs : Catalogs) : List (Tile × ConfigBit) :=
  g.tiles.toList.flatMap fun t =>
    -- a placeholder only keeps its cell
    if t.flag = .placeholder then []
    else
      match catalogs.get? t.kind with
      | some catalog => catalog.bits.map (t, ·)
      | none => []

/-- The fuse map of a grid and its catalogs. -/
def build (g : TileGrid) (catalogs : Catalogs) (correct : Bool) : Checked FuseMap :=
  (placedBits g catalogs).foldlM (fun m (t, b) => do return m.add correct (← g.resolve b t)) {}

/-- What is reported when a fuse map has been counted. -/
def events (m : FuseMap) : List Event :=
  m.unresolved.toList.map .unresolved ++
    [.fusesCounted m.hits.size m.notApplicable m.unresolved.size]

/-- The mark of a count: a point for none, a digit up to nine, a hash above. -/
def mark (count : UInt32) : Char :=
  if count = 0 then '.' else if count ≤ 9 then Nat.digitChar count.toNat else '#'

/-- The text of one row, up to a column. -/
def renderRow (m : FuseMap) (maxCol row : Nat) : String :=
  String.ofList ((List.range (maxCol + 1)).map fun col => mark (m.get (.ofNat row) (.ofNat col)))

/-- The map as text, a line for each row up to the last with a hit, a mark for each column up to the
last with a hit. A map without hits is empty. -/
def render (m : FuseMap) : String :=
  match (m.hits.keys.map fun fuse => fuse.1.toNat).max? with
  | none => ""
  | some maxRow =>
    let maxCol := ((m.hits.keys.map fun fuse => fuse.2.toNat).max?).getD 0
    String.join ((List.range (maxRow + 1)).map fun row => m.renderRow maxCol row ++ "\n")

end FuseMap

end ChipAtlas
