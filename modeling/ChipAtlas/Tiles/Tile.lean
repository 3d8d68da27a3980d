import ChipAtlas.Json

/-!
# Tiles

A tile is an instance of a tile kind at a cell of the chip. It has an extent and the frame and bit
address where its configuration begins, and a flag: `-1` for a tile that relocated bits of other
tiles can be found in, `0` for a placeholder without extent and address, and other numbers without a
known meaning.
-/

namespace ChipAtlas

/-- The role of a tile. -/
inductive TileFlag where
  /-- Relocated bits of other tiles are looked up here. -/
  | template
  /-- A tile without extent and address. -/
  | placeholder
  | located (raw : Int32)
  deriving DecidableEq, Repr

/-- The role that a number stands for. -/
def TileFlag.ofRaw (raw : Int32) : TileFlag :=
  if raw = -1 then template else if raw = 0 then placeholder else located raw

/-- The number that stands for a role. -/
def TileFlag.raw : TileFlag → Int32
  | template => -1
  | placeholder => 0
  | located raw => raw

@[simp] theorem TileFlag.raw_ofRaw (raw : Int32) : (ofRaw raw).raw = raw := by
  unfold ofRaw
  split
  · simp_all [TileFlag.raw]
  · split <;> simp_all [TileFlag.raw]

/-- Zero is the only number of a placeholder. -/
theorem TileFlag.ofRaw_eq_placeholder_iff {raw : Int32} : ofRaw raw = placeholder ↔ raw = 0 := by
  refine ⟨fun h => ?_, ?_⟩
  · rw [← raw_ofRaw raw, h]
    rfl
  · rintro rfl
    rfl

/-- An instance of a tile kind at a cell. -/
structure Tile where
  name : String
  kind : String
  x : UInt32
  y : UInt32
  width : UInt32
  height : UInt32
  frameBase : UInt32
  bitBase : UInt32
  flag : TileFlag
  deriving DecidableEq, Repr

/-- A place for a primitive inside a tile. -/
structure Site where
  name : String
  kind : String
  deriving DecidableEq, Repr

/-- The tile kinds with sites, by the beginning of their names: the kind of the sites, and their
number. -/
def siteRules : List (String × String × Nat) := [("plb", "slice", 4), ("dsp", "mult18", 4)]

namespace Tile

/-- The sites of a tile, numbered from zero. -/
def sites (t : Tile) : List Site :=
  match siteRules.find? fun rule => rule.1.toList.isPrefixOf t.kind.toList with
  | some (_, kind, number) => (List.range number).map fun i => ⟨s!"{kind}{i}", kind⟩
  | none => []

/-- A tile as a member of an object that is keyed by tile names. -/
def toCurrentJson (t : Tile) : Json :=
  let sites := t.sites.map fun site =>
    .object [("name", .text site.name), ("type", .text site.kind)]
  .object ([
    ("type", .text t.kind),
    ("x", .ofUInt32 t.x),
    ("y", .ofUInt32 t.y),
    ("w", .ofUInt32 t.width),
    ("h", .ofUInt32 t.height),
    ("start_frame", .ofUInt32 t.frameBase),
    ("start_bit", .ofUInt32 t.bitBase),
    ("flag", .ofInt32 t.flag.raw)] ++
    if sites.isEmpty then [] else [("sites", .list sites)])

/-- A tile as an element of the list of its cell. -/
def toLegacyJson (t : Tile) : Json :=
  .object [
    ("inst", .text t.name),
    ("type", .text t.kind),
    ("unk1", .ofUInt32 t.width),
    ("unk2", .ofUInt32 t.height),
    ("wl_beg", .ofUInt32 t.frameBase),
    ("bl_beg", .ofUInt32 t.bitBase),
    ("unk5", .ofInt32 t.flag.raw)]

end Tile

end ChipAtlas
