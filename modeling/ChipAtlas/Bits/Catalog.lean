import ChipAtlas.Bits.ConfigBit
import ChipAtlas.Violation

/-!
# Catalogs of configuration bits

A catalog lists the configuration bits of one tile kind, in file order. A file may give the catalog
of a kind in several blocks; they are joined under its name, which keeps the place of its first
block.
-/

namespace ChipAtlas

/-- The configuration bits of one tile kind, and the header lines of the blocks they came in. -/
structure Catalog where
  headers : List Record := []
  bits : List ConfigBit := []
  deriving DecidableEq, Repr, Inhabited

namespace Catalog

/-- The bits of a catalog as they are exported. -/
def toJson (c : Catalog) : Json := .list (c.bits.map ConfigBit.toJson)

/-- The first bit with a name. -/
def find? (c : Catalog) (name : String) : Option ConfigBit := c.bits.find? (·.name = name)

/-- A catalog with one more block behind it. -/
def append (c : Catalog) (headers : List Record) (bits : List ConfigBit) : Catalog :=
  ⟨c.headers ++ headers, c.bits ++ bits⟩

/-- The name of the file that the catalog of a kind is exported to. A slash would name a directory
and is replaced. -/
def fileName (kind : String) : String :=
  String.ofList (kind.toList.map fun c => if c = '/' then '_' else c) ++ ".json"

end Catalog

/-- The catalogs of a file by tile kind, in order of their first blocks. -/
abbrev Catalogs := OrderedMap String Catalog

namespace Catalogs

/-- The catalogs with one more block, joined to the catalog of its kind if there is one. -/
def addBlock (cs : Catalogs) (kind : String) (headers : List Record) (bits : List ConfigBit) :
    Catalogs :=
  cs.alter kind fun known => (known.getD {}).append headers bits

/-- The number of configuration bits in all catalogs. -/
def bitCount (cs : Catalogs) : Nat := (cs.entries.flatMap (·.2.bits)).length

end Catalogs

end ChipAtlas
