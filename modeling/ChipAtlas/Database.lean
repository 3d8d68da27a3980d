import ChipAtlas.Format.Architecture
import ChipAtlas.Format.BitTable
import ChipAtlas.Format.Header
import ChipAtlas.Format.Model
import ChipAtlas.Format.Pack
import ChipAtlas.Format.Routing
import ChipAtlas.Format.TileTable
import ChipAtlas.Format.Timing
import ChipAtlas.Format.Trailer
import ChipAtlas.Fuses.FuseMap

/-!
# Chip databases

A chip database is everything that one file says about a chip: its sections in file order.

* `Database.script` — the form of a whole file;
* `decode` — a file, read from its first line.
-/

namespace ChipAtlas

/-- Everything that one file says about a chip. -/
structure Database where
  banner : Record
  magic : String
  key : String
  variant : Variant
  architectures : List Architecture
  routing : Routing
  legacyRouting : Option LegacyRouting
  models : List Model
  names : List Record
  constraints : List Record
  pack : Pack
  timing : TimingLib
  serdes : Option Serdes
  catalogs : Catalogs
  grid : TileGrid
  belTypes : List Record
  trailer : List Record
  deriving DecidableEq, Repr

namespace Database

/-- The second routing section, which only a legacy file has. -/
def legacyRoutingScript : Variant → Script (Option LegacyRouting)
  | .legacy => some <$> LegacyRouting.script
  | .current => pure none

/-- The form of a whole file. -/
def script : Script Database := do
  let header ← Header.script
  .note (.headerRead header.architectures.length header.variant) (.done ())
  let architectures ← Architecture.allScript header.architectures
  let routing ← Routing.script header.variant
  let legacyRouting ← legacyRoutingScript header.variant
  let models ← Model.allScript
  let names ← namesScript
  let constraints ← constraintsScript
  let pack ← Pack.script
  let timing ← TimingLib.script
  let serdes ← Serdes.script
  let catalogs ← Catalogs.script
  let grid ← TileGrid.script
  -- the grid keeps the header of its table, which sizes the trailer
  let trailer ← Trailer.script grid.header
  -- the event tells how many lines were taken in all
  .noteLines
    (.decoded · catalogs.size catalogs.bitCount grid.maxCol grid.maxRow grid.tiles.size)
    (.done ())
  return {
    banner := header.banner
    magic := header.magic
    key := header.key
    variant := header.variant
    architectures
    routing
    legacyRouting
    models
    names
    constraints
    pack
    timing
    serdes
    catalogs
    grid
    belTypes := trailer.belTypes
    trailer := trailer.tail }

/-- The name of the first architecture. -/
def archName (db : Database) : Option String := db.architectures.head?.map (·.name)

/-- The text of the exported tile grid. -/
def tileGridText (db : Database) (layout : Variant) : Checked String := do
  return (← db.grid.toJson layout).pretty ++ "\n"

/-- The fuse map of the chip. -/
def fuseMap (db : Database) (correct : Bool) : Checked FuseMap :=
  FuseMap.build db.grid db.catalogs correct

end Database

/-- Decodes a file, with a dump of the deciphered lines if one is given. -/
def decode (bytes : List UInt8) (dump : Option Dump := none) :
    EStateM.Result Failure Reading Database :=
  Database.script.run (.ofBytes bytes dump)

end ChipAtlas
