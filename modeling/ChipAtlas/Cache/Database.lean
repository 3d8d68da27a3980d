import ChipAtlas.Cache.Codec
import ChipAtlas.Database

/-!
# Cached databases

The byte form of a decoded database: its sections in file order, field by field. Reading the bytes
back gives the database without decoding its file again.
-/

namespace ChipAtlas

namespace Codec

/-- The fields of a line. -/
def record : Codec Record := list text

/-- Lines. -/
def records : Codec (List Record) := list record

/-! ### Sections -/

/-- A numbered record of an architecture. -/
def indexedRecord : Codec IndexedRecord where
  put r := uint32.put r.index ++ records.put r.body ++ (list records).put r.lists
  take := return {
    index := ← uint32.take
    body := ← records.take
    lists := ← (list records).take }

/-- The description of an architecture. -/
def architecture : Codec Architecture where
  put a := text.put a.name ++ record.put a.nameLine ++ record.put a.head ++
    (list records).put a.lists ++ record.put a.dims ++ record.put a.table ++ records.put a.pairs ++
    record.put a.elements ++ records.put a.misc ++ (list indexedRecord).put a.indexed
  take := return {
    name := ← text.take
    nameLine := ← record.take
    head := ← record.take
    lists := ← (list records).take
    dims := ← record.take
    table := ← record.take
    pairs := ← records.take
    elements := ← record.take
    misc := ← records.take
    indexed := ← (list indexedRecord).take }

/-- A wire region. -/
def wireRegion : Codec WireRegion where
  put r := record.put r.header ++ records.put r.entries
  take := return { header := ← record.take, entries := ← records.take }

/-- A wire region behind an index line. -/
def indexedRegion : Codec IndexedRegion where
  put r := record.put r.index ++ wireRegion.put r.region
  take := return { index := ← record.take, region := ← wireRegion.take }

/-- The routing section. -/
def routing : Codec Routing where
  put r := record.put r.counts ++ (list wireRegion).put r.leading ++
    (list wireRegion).put r.fixed ++ (list indexedRegion).put r.indexed ++
    (list wireRegion).put r.trailing
  take := return {
    counts := ← record.take
    leading := ← (list wireRegion).take
    fixed := ← (list wireRegion).take
    indexed := ← (list indexedRegion).take
    trailing := ← (list wireRegion).take }

/-- The second routing section of a legacy file. -/
def legacyRouting : Codec LegacyRouting where
  put r := (list wireRegion).put r.regions ++ records.put r.extra
  take := return { regions := ← (list wireRegion).take, extra := ← records.take }

/-- A leaf of a model. -/
def modelLeaf : Codec ModelLeaf where
  put l := record.put l.head ++ record.put l.body
  take := return { head := ← record.take, body := ← record.take }

/-- A model. -/
def model : Codec Model where
  put m := record.put m.header ++ (list (list modelLeaf)).put m.groups
  take := return { header := ← record.take, groups := ← (list (list modelLeaf)).take }

/-- The packing rules. -/
def pack : Codec Pack where
  put p := record.put p.header ++ records.put p.entries ++ record.put p.kcap
  take := return {
    header := ← record.take
    entries := ← records.take
    kcap := ← record.take }

/-- A pair of names with a few lines. -/
def timingGroup : Codec TimingGroup where
  put g := record.put g.head ++ records.put g.body
  take := return { head := ← record.take, body := ← records.take }

/-- A nest of the timing library. -/
def timingNest : Codec TimingNest where
  put n := record.put n.head ++ records.put n.body ++ (list (pair record record)).put n.items
  take := return {
    head := ← record.take
    body := ← records.take
    items := ← (list (pair record record)).take }

/-- The timing library. -/
def timingLib : Codec TimingLib where
  put t := record.put t.tag ++ records.put t.pairs ++ (list timingGroup).put t.twoLine ++
    (list timingGroup).put t.threeLine ++ (list timingNest).put t.nests
  take := return {
    tag := ← record.take
    pairs := ← records.take
    twoLine := ← (list timingGroup).take
    threeLine := ← (list timingGroup).take
    nests := ← (list timingNest).take }

/-- The lists of the serial transceivers. -/
def serdes : Codec Serdes where
  put s := records.put s.pcie ++ records.put s.serdes
  take := return { pcie := ← records.take, serdes := ← records.take }

/-! ### Configuration bits -/

/-- A symbol of a bit expression. -/
def token : Codec Token where
  put
    | .falseConst => putCase 0
    | .trueConst => putCase 1
    | .unknown code => putCase 2 ++ byte.put code
    | .leftParen => putCase 3
    | .rightParen => putCase 4
    | .orOp => putCase 5
    | .andOp => putCase 6
    | .notOp => putCase 7
    | .var id => putCase 8 ++ uint32.put id
  take := do
    match ← takeNat 4 with
    | 0 => return .falseConst
    | 1 => return .trueConst
    | 2 => return .unknown (← byte.take)
    | 3 => return .leftParen
    | 4 => return .rightParen
    | 5 => return .orOp
    | 6 => return .andOp
    | 7 => return .notOp
    | 8 => return .var (← uint32.take)
    | _ => failure

/-- A variable of a bit expression. -/
def operand : Codec Operand where
  put o := operandKind.put o.kind ++ text.put o.raw
  take := return { kind := ← operandKind.take, raw := ← text.take }
where
  /-- The kind of a variable. -/
  operandKind : Codec OperandKind :=
    oneOf [.property, .arcVal, .comp, .memory, .selector, .wire, .ports, .other]

/-- A configuration bit. -/
def configBit : Codec ConfigBit where
  put b := text.put b.name ++ text.put b.kind ++ uint32.put b.frame ++ uint32.put b.bit ++
    int32.put b.xoff ++ int32.put b.yoff ++ flag.put b.usesWireOrArc ++ flag.put b.remap ++
    flag.put b.pllInfo ++ (list token).put b.infixTokens ++ (list token).put b.postfixTokens ++
    (orderedMap uint32 operand).put b.vars
  take := return {
    name := ← text.take
    kind := ← text.take
    frame := ← uint32.take
    bit := ← uint32.take
    xoff := ← int32.take
    yoff := ← int32.take
    usesWireOrArc := ← flag.take
    remap := ← flag.take
    pllInfo := ← flag.take
    infixTokens := ← (list token).take
    postfixTokens := ← (list token).take
    vars := ← (orderedMap uint32 operand).take }

/-- A catalog of configuration bits. -/
def catalog : Codec Catalog where
  put c := records.put c.headers ++ (list configBit).put c.bits
  take := return { headers := ← records.take, bits := ← (list configBit).take }

/-! ### Tiles -/

/-- The role of a tile. -/
def tileFlag : Codec TileFlag where
  put
    | .template => putCase 0
    | .placeholder => putCase 1
    | .located raw => putCase 2 ++ int32.put raw
  take := do
    match ← takeNat 4 with
    | 0 => return .template
    | 1 => return .placeholder
    | 2 => return .located (← int32.take)
    | _ => failure

/-- A tile. -/
def tile : Codec Tile where
  put t := text.put t.name ++ text.put t.kind ++ uint32.put t.x ++ uint32.put t.y ++
    uint32.put t.width ++ uint32.put t.height ++ uint32.put t.frameBase ++ uint32.put t.bitBase ++
    tileFlag.put t.flag
  take := return {
    name := ← text.take
    kind := ← text.take
    x := ← uint32.take
    y := ← uint32.take
    width := ← uint32.take
    height := ← uint32.take
    frameBase := ← uint32.take
    bitBase := ← uint32.take
    flag := ← tileFlag.take }

/-- The tile grid with its indices. -/
def tileGrid : Codec TileGrid where
  put g := record.put g.header ++ uint32.put g.maxCol ++ uint32.put g.maxRow ++
    (array tile).put g.tiles ++ (table (list nat32)).put g.cells ++
    (table (sortedMap nat32)).put g.templates ++ (orderedMap text nat32).put g.byName
  take := return {
    header := ← record.take
    maxCol := ← uint32.take
    maxRow := ← uint32.take
    tiles := ← (array tile).take
    cells := ← (table (list nat32)).take
    templates := ← (table (sortedMap nat32)).take
    byName := ← (orderedMap text nat32).take }

/-! ### The whole -/

/-- A decoded database. -/
def database : Codec Database where
  put db := record.put db.banner ++ text.put db.magic ++ text.put db.key ++
    variant.put db.variant ++ (list architecture).put db.architectures ++ routing.put db.routing ++
    (option legacyRouting).put db.legacyRouting ++ (list model).put db.models ++
    records.put db.names ++ records.put db.constraints ++ pack.put db.pack ++
    timingLib.put db.timing ++ (option serdes).put db.serdes ++
    (orderedMap text catalog).put db.catalogs ++ tileGrid.put db.grid ++ records.put db.belTypes ++
    records.put db.trailer
  take := return {
    banner := ← record.take
    magic := ← text.take
    key := ← text.take
    variant := ← variant.take
    architectures := ← (list architecture).take
    routing := ← routing.take
    legacyRouting := ← (option legacyRouting).take
    models := ← (list model).take
    names := ← records.take
    constraints := ← records.take
    pack := ← pack.take
    timing := ← timingLib.take
    serdes := ← (option serdes).take
    catalogs := ← (orderedMap text catalog).take
    grid := ← tileGrid.take
    belTypes := ← records.take
    trailer := ← records.take }
where
  /-- The variant of a file. -/
  variant : Codec Variant := oneOf [.legacy, .current]

end Codec

namespace Database

/-- The byte form of a database. -/
def toPayload (db : Database) : List UInt8 := Codec.database.put db

/-- The database at the front of a payload; what follows is not looked at. -/
def ofPayload? (bytes : List UInt8) : Option Database :=
  (Codec.database.take (.plain bytes)).map Prod.fst

/-- The bytes of the cache file of a database. -/
def toCacheFile (db : Database) : List UInt8 := Zstandard.pack db.toPayload

/-- The database in a cache file. -/
def ofCacheFile? (bytes : List UInt8) : Option Database :=
  (Codec.database.take (.packed (.ofFile bytes))).map Prod.fst

end Database

end ChipAtlas
