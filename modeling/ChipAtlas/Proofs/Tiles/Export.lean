import ChipAtlas.Proofs.Json
import ChipAtlas.Proofs.Tiles.Placed
import Mathlib.Data.List.Forall2
import Mathlib.Data.List.Nodup
import Mathlib.Data.Set.Basic

/-!
# The two exports of a grid

The legacy layout lists the tiles cell by cell. The current layout has them by name, and so has no
place for a tile whose name was taken over by a later one. What they say of a tile is the same, in
members with other names: its kind, its position, its extent, its base address and the number of its
flag. In the legacy layout the position is said once, by the cell.

What a layout says is read from the JSON values alone (`Says`), and no value says two things of a
tile (`Says.unique`), because the numbers of an export are those of the tile.

* `TileGrid.ListsCells`, `TileGrid.ListsNames` — what the two layouts list;
* `TileGrid.Indexed.exists_named_members` — the tiles behind the names;
* `TileGrid.legacyInstances`, `TileGrid.currentInstances` — what they say of which instances;
* `TileGrid.exists_foldlM_exports` — the exports of every grid that is made by insertions.
-/

namespace ChipAtlas

/-! ### What is said of a tile -/

/-- What an export says of a tile besides its name. -/
structure TileFacts where
  kind : String
  x : UInt32
  y : UInt32
  width : UInt32
  height : UInt32
  frameBase : UInt32
  bitBase : UInt32
  flag : Int32
  deriving DecidableEq, Repr

/-- What is to be said of a tile. A template is said to have the flag -1 and a placeholder the
flag 0. -/
def Tile.facts (t : Tile) : TileFacts where
  kind := t.kind
  x := t.x
  y := t.y
  width := t.width
  height := t.height
  frameBase := t.frameBase
  bitBase := t.bitBase
  flag :=
    match t.flag with
    | .template => -1
    | .placeholder => 0
    | .located number => number

theorem Tile.flag_facts (t : Tile) : t.facts.flag = t.flag.raw := by
  rw [facts]
  cases t.flag <;> rfl

/-- The names of the members that are named differently in the two layouts. -/
structure MemberNames where
  width : String
  height : String
  frameBase : String
  bitBase : String
  flag : String

/-- The names of the current layout. -/
def MemberNames.current : MemberNames := ⟨"w", "h", "start_frame", "start_bit", "flag"⟩

/-- The names of the legacy layout. -/
def MemberNames.legacy : MemberNames := ⟨"unk1", "unk2", "wl_beg", "bl_beg", "unk5"⟩

/-- A record says what is told of a tile, and a place says where the tile lies. -/
structure Says (names : MemberNames) (place record : Json) (f : TileFacts) : Prop where
  kind : record.member? "type" = some (.text f.kind)
  x : place.member? "x" = some (.ofUInt32 f.x)
  y : place.member? "y" = some (.ofUInt32 f.y)
  width : record.member? names.width = some (.ofUInt32 f.width)
  height : record.member? names.height = some (.ofUInt32 f.height)
  frameBase : record.member? names.frameBase = some (.ofUInt32 f.frameBase)
  bitBase : record.member? names.bitBase = some (.ofUInt32 f.bitBase)
  flag : record.member? names.flag = some (.ofInt32 f.flag)

/-- No record says two things. -/
theorem Says.unique {names : MemberNames} {place record : Json} {f f' : TileFacts}
    (h : Says names place record f) (h' : Says names place record f') : f = f' := by
  have hword {m n : UInt32} {json : Option Json} (hm : json = some (.ofUInt32 m))
      (hn : json = some (.ofUInt32 n)) : m = n :=
    Json.ofUInt32_inj.1 (Option.some.inj (hm.symm.trans hn))
  have hkind := Json.text.inj (Option.some.inj (h.kind.symm.trans h'.kind))
  have hflag := Json.ofInt32_inj.1 (Option.some.inj (h.flag.symm.trans h'.flag))
  obtain ⟨kind, x, y, width, height, frameBase, bitBase, flag⟩ := f
  obtain ⟨kind', x', y', width', height', frameBase', bitBase', flag'⟩ := f'
  rw [TileFacts.mk.injEq]
  exact ⟨hkind, hword h.x h'.x, hword h.y h'.y, hword h.width h'.width,
    hword h.height h'.height, hword h.frameBase h'.frameBase, hword h.bitBase h'.bitBase, hflag⟩

/-- In the current layout, a tile says its place itself. -/
theorem Tile.says_toCurrentJson (t : Tile) :
    Says .current t.toCurrentJson t.toCurrentJson t.facts :=
  ⟨rfl, rfl, rfl, rfl, rfl, rfl, rfl, congrArg (some ∘ Json.ofInt32) t.flag_facts.symm⟩

/-- In the legacy layout, the cell of a tile says its place. -/
theorem Tile.says_toLegacyJson {t : Tile} {cell : Json}
    (hx : cell.member? "x" = some (.ofUInt32 t.x)) (hy : cell.member? "y" = some (.ofUInt32 t.y)) :
    Says .legacy cell t.toLegacyJson t.facts :=
  ⟨rfl, hx, hy, rfl, rfl, rfl, rfl, congrArg (some ∘ Json.ofInt32) t.flag_facts.symm⟩

namespace TileGrid

/-! ### Rows of results -/

section Rows

variable {α β : Type} {R : α → β → Prop} {as : List α} {bs : List β}

/-- A row of checked results consists of the results. -/
theorem mapM_eq_ok {f : α → Checked β} :
    as.mapM f = .ok bs ↔ List.Forall₂ (fun a b => f a = .ok b) as bs := by
  induction as generalizing bs with
  | nil =>
    rw [List.forall₂_nil_left_iff]
    exact ⟨fun h => (Except.ok.inj h).symm, fun h => congrArg Except.ok h.symm⟩
  | cons a as ih =>
    rw [List.mapM_cons, bind_eq_ok, List.forall₂_cons_left_iff]
    refine exists_congr fun b => ?_
    simp only [bind_eq_ok, ih]
    refine ⟨?_, ?_⟩
    · rintro ⟨hb, bs', hbs', h⟩
      exact ⟨bs', hb, hbs', (Except.ok.inj h).symm⟩
    · rintro ⟨bs', hb, hbs', rfl⟩
      exact ⟨hb, bs', hbs', rfl⟩

/-- A row of results that are known one by one. -/
theorem mapM_eq_ok_map {f : α → Checked β} {h : α → β} (hf : ∀ a ∈ as, f a = .ok (h a)) :
    as.mapM f = .ok (as.map h) := by
  rw [mapM_eq_ok, List.forall₂_map_right_iff, List.forall₂_same]
  exact hf

theorem exists_of_mem_left (h : List.Forall₂ R as bs) {a : α} (ha : a ∈ as) : ∃ b ∈ bs, R a b := by
  obtain ⟨i, hi, rfl⟩ := List.getElem_of_mem ha
  have hi' : i < bs.length := h.length_eq ▸ hi
  exact ⟨bs[i], List.getElem_mem hi', h.get hi hi'⟩

theorem exists_of_mem_right (h : List.Forall₂ R as bs) {b : β} (hb : b ∈ bs) : ∃ a ∈ as, R a b :=
  exists_of_mem_left h.flip hb

theorem eq_of_getElem?_range {n i j : Nat} (h : (List.range n)[i]? = some j) : i = j := by
  obtain ⟨hi, hj⟩ := List.getElem?_eq_some_iff.1 h
  rwa [List.getElem_range] at hj

end Rows

variable {g : TileGrid} {maxCol maxRow : UInt32} {header : Record} {tiles : List Tile}

/-! ### The legacy layout -/

/-- A list of rows has the rows and cells of a grid, each cell with its label and with the tiles
that were inserted into it, in their order. -/
structure ListsCells (maxCol maxRow : UInt32) (tiles : List Tile) (rows : List Json) : Prop where
  length_eq : rows.length = maxRow.toNat
  row : ∀ (y : Nat) (row : Json), rows[y]? = some row →
    ∃ cells, row = .list cells ∧ cells.length = maxCol.toNat ∧
      ∀ (x : Nat) (cell : Json), cells[x]? = some cell →
        cell.member? "x" = some (.ofUInt32 (.ofNat x)) ∧
        cell.member? "y" = some (.ofUInt32 (.ofNat y)) ∧
        cell.member? "loc" = some (.text s!"x{x}y{y}") ∧
        ∃ records, cell.member? "val" = some (.list records) ∧
          List.Forall₂ (fun t record => record.member? "inst" = some (.text t.name) ∧
            Says .legacy cell record t.facts) (tiles.filter (·.At x y)) records

/-- The cell of a row of tiles at a position. -/
def cellOf (tiles : List Tile) (x y : Nat) : Json :=
  .object [
    ("x", .ofUInt32 (.ofNat x)),
    ("y", .ofUInt32 (.ofNat y)),
    ("loc", .text s!"x{x}y{y}"),
    ("val", .list ((tiles.filter (·.At x y)).map Tile.toLegacyJson))]

/-- The rows of cells of a row of tiles. -/
def rowsOf (maxCol maxRow : UInt32) (tiles : List Tile) : List Json :=
  (List.range maxRow.toNat).map fun y =>
    .list ((List.range maxCol.toNat).map fun x => cellOf tiles x y)

theorem Indexed.cellJson_eq (h : g.Indexed maxCol maxRow header tiles) {x y : Nat}
    (hx : x < maxCol.toNat) (hy : y < maxRow.toNat) :
    g.cellJson (.ofNat x) (.ofNat y) = .ok (cellOf tiles x y) := by
  have hword {n : Nat} {bound : UInt32} (hn : n < bound.toNat) : (UInt32.ofNat n).toNat = n :=
    UInt32.toNat_ofNat_of_lt' (Nat.lt_trans hn bound.toNat_lt)
  have hcell := h.cell (x := .ofNat x) (y := .ofNat y)
    (by rwa [UInt32.lt_iff_toNat_lt, hword hx]) (by rwa [UInt32.lt_iff_toNat_lt, hword hy])
  rw [hword hx, hword hy] at hcell
  rw [cellJson, hcell, hword hx, hword hy]
  rfl

theorem Indexed.toLegacyJson_eq (h : g.Indexed maxCol maxRow header tiles) :
    g.toJson .legacy = .ok (.list (rowsOf maxCol maxRow tiles)) := by
  show g.toLegacyJson = _
  rw [toLegacyJson, h.maxCol_eq, h.maxRow_eq, bind_eq_ok]
  refine ⟨_, mapM_eq_ok_map fun y hy => ?_, rfl⟩
  rw [bind_eq_ok]
  refine ⟨_, mapM_eq_ok_map fun x hx => ?_, rfl⟩
  exact h.cellJson_eq (List.mem_range.1 hx) (List.mem_range.1 hy)

theorem listsCells_rowsOf (maxCol maxRow : UInt32) (tiles : List Tile) :
    ListsCells maxCol maxRow tiles (rowsOf maxCol maxRow tiles) := by
  refine ⟨by rw [rowsOf, List.length_map, List.length_range], fun y row hrow => ?_⟩
  rw [rowsOf, List.getElem?_map] at hrow
  obtain ⟨y', hy, rfl⟩ := Option.map_eq_some_iff.1 hrow
  obtain rfl := eq_of_getElem?_range hy
  refine ⟨_, rfl, by rw [List.length_map, List.length_range], fun x cell hcell => ?_⟩
  rw [List.getElem?_map] at hcell
  obtain ⟨x', hx, rfl⟩ := Option.map_eq_some_iff.1 hcell
  obtain rfl := eq_of_getElem?_range hx
  refine ⟨rfl, rfl, rfl, _, rfl, ?_⟩
  rw [List.forall₂_map_right_iff, List.forall₂_same]
  intro t ht
  -- the label of the cell is the position of its tiles
  obtain ⟨rfl, rfl⟩ : t.At x y := of_decide_eq_true (List.mem_filter.1 ht).2
  refine ⟨rfl, t.says_toLegacyJson ?_ ?_⟩
  · exact congrArg (some ∘ Json.ofUInt32) UInt32.ofNat_toNat
  · exact congrArg (some ∘ Json.ofUInt32) UInt32.ofNat_toNat

/-- What is told of which instances in rows of cells, by name. -/
def legacyInstances (rows : List Json) : Set (String × TileFacts) :=
  {i | ∃ row ∈ rows, ∃ cells, row = .list cells ∧ ∃ cell ∈ cells,
    ∃ records, cell.member? "val" = some (.list records) ∧ ∃ record ∈ records,
      record.member? "inst" = some (.text i.1) ∧ Says .legacy cell record i.2}

/-- Rows of cells tell of every tile, and of nothing else. -/
theorem ListsCells.instances_eq {rows : List Json} (h : ListsCells maxCol maxRow tiles rows)
    (hin : ∀ t ∈ tiles, t.x.toNat < maxCol.toNat ∧ t.y.toNat < maxRow.toNat) :
    legacyInstances rows = {i | ∃ t ∈ tiles, i = (t.name, t.facts)} := by
  ext ⟨name, f⟩
  refine ⟨?_, ?_⟩
  · rintro ⟨row, hrow, cells, rfl, cell, hcell, records, hval, record, hrecord, hname, hfacts⟩
    obtain ⟨y, hy⟩ := List.mem_iff_getElem?.1 hrow
    obtain ⟨cells', hcells', -, hall⟩ := h.row y _ hy
    obtain rfl := Json.list.inj hcells'
    obtain ⟨x, hx⟩ := List.mem_iff_getElem?.1 hcell
    obtain ⟨-, -, -, records', hval', hrecords⟩ := hall x cell hx
    obtain rfl := Json.list.inj (Option.some.inj (hval.symm.trans hval'))
    obtain ⟨t, ht, hname', hfacts'⟩ := exists_of_mem_right hrecords hrecord
    refine ⟨t, (List.mem_filter.1 ht).1, Prod.ext ?_ (hfacts.unique hfacts')⟩
    exact Json.text.inj (Option.some.inj (hname.symm.trans hname'))
  · rintro ⟨t, ht, heq⟩
    obtain ⟨rfl, rfl⟩ := Prod.mk.inj heq
    obtain ⟨hx, hy⟩ := hin t ht
    -- the tile is found in the cell at its position
    obtain ⟨row, hrow⟩ : ∃ row, rows[t.y.toNat]? = some row :=
      ⟨_, List.getElem?_eq_getElem (h.length_eq ▸ hy)⟩
    obtain ⟨cells, rfl, hlength, hall⟩ := h.row _ row hrow
    obtain ⟨cell, hcell⟩ : ∃ cell, cells[t.x.toNat]? = some cell :=
      ⟨_, List.getElem?_eq_getElem (hlength ▸ hx)⟩
    obtain ⟨-, -, -, records, hval, hrecords⟩ := hall _ cell hcell
    have hmem : t ∈ tiles.filter (·.At t.x.toNat t.y.toNat) :=
      List.mem_filter.2 ⟨ht, decide_eq_true ⟨rfl, rfl⟩⟩
    obtain ⟨record, hrecord, hname, hfacts⟩ := exists_of_mem_left hrecords hmem
    exact ⟨_, List.mem_of_getElem? hrow, cells, rfl, cell, List.mem_of_getElem? hcell, records,
      hval, record, hrecord, hname, hfacts⟩

/-! ### The current layout -/

/-- A list of members has one for each name, in the order in which the names were first inserted,
and each tells of the last tile with its name. -/
structure ListsNames (tiles : List Tile) (members : List (String × Json)) : Prop where
  names_eq : members.map Prod.fst = (tiles.map Tile.name).eraseDups
  member : ∀ (name : String) (member : Json), (name, member) ∈ members →
    ∃ t, (tiles.filter (·.name = name)).getLast? = some t ∧ Says .current member member t.facts

/-- A name and its number are exported as the name and the tile of this number. -/
theorem exists_of_memberOf {e : String × Nat} {member : String × Json}
    (h : (do return (e.1, (← g.tile e.2).toCurrentJson) : Checked (String × Json)) = .ok member) :
    ∃ t, g.tile e.2 = .ok t ∧ member = (e.1, t.toCurrentJson) := by
  obtain ⟨t, ht, heq⟩ := bind_eq_ok.1 h
  exact ⟨t, ht, (Except.ok.inj heq).symm⟩

/-- **The members of the current layout.** Each of them is the last tile of its name. -/
theorem Indexed.exists_named_members (h : g.Indexed maxCol maxRow header tiles)
    (hin : ∀ t ∈ tiles, t.x.toNat < maxCol.toNat ∧ t.y.toNat < maxRow.toNat) :
    ∃ members, g.toJson .current = .ok (.object members) ∧
      members.map Prod.fst = (tiles.map Tile.name).eraseDups ∧
      ∀ name member, (name, member) ∈ members →
        ∃ t, (tiles.filter (·.name = name)).getLast? = some t ∧ member = t.toCurrentJson := by
  have hplaced : g.Placed maxCol maxRow := ⟨header, tiles, h, hin⟩
  obtain ⟨json, hjson⟩ := hplaced.exists_toJson .current
  obtain ⟨members, hmembers, hobject⟩ := bind_eq_ok.1 hjson
  obtain rfl := Except.ok.inj hobject
  have hentries := mapM_eq_ok.1 hmembers
  refine ⟨members, hjson, ?_, fun name member hmember => ?_⟩
  · rw [← h.byName_keys, OrderedMap.keys, eq_comm, ← List.forall₂_eq_eq_eq,
      List.forall₂_map_left_iff, List.forall₂_map_right_iff]
    refine hentries.imp fun e member hmember => ?_
    obtain ⟨t, -, rfl⟩ := exists_of_memberOf hmember
    rfl
  · obtain ⟨e, he, hentry⟩ := exists_of_mem_right hentries hmember
    obtain ⟨t, ht, heq⟩ := exists_of_memberOf hentry
    obtain ⟨rfl, rfl⟩ := Prod.mk.inj heq
    have hlast : (numbers tiles (·.name = e.1)).getLast? = some e.2 := by
      rw [← h.byName_get?]
      exact OrderedMap.mem_entries_iff.1 he
    obtain ⟨u, hu, hnamed⟩ := h.tile_of_getLast? hlast
    obtain rfl := Except.ok.inj (ht.symm.trans hu)
    exact ⟨t, hnamed, rfl⟩

theorem Indexed.exists_listsNames (h : g.Indexed maxCol maxRow header tiles)
    (hin : ∀ t ∈ tiles, t.x.toNat < maxCol.toNat ∧ t.y.toNat < maxRow.toNat) :
    ∃ members, g.toJson .current = .ok (.object members) ∧ ListsNames tiles members := by
  obtain ⟨members, hjson, hnames, hmembers⟩ := h.exists_named_members hin
  refine ⟨members, hjson, hnames, fun name member hmember => ?_⟩
  obtain ⟨t, ht, rfl⟩ := hmembers name member hmember
  exact ⟨t, ht, t.says_toCurrentJson⟩

/-- What is told of which instances in the members of an object, by name. -/
def currentInstances (members : List (String × Json)) : Set (String × TileFacts) :=
  {i | ∃ member, (i.1, member) ∈ members ∧ Says .current member member i.2}

/-- The members tell of the last tile of each name, and of nothing else. -/
theorem ListsNames.instances_eq {members : List (String × Json)} (h : ListsNames tiles members) :
    currentInstances members =
      {i | ∃ t, (tiles.filter (·.name = i.1)).getLast? = some t ∧ i.2 = t.facts} := by
  ext ⟨name, f⟩
  refine ⟨?_, ?_⟩
  · rintro ⟨member, hmember, hfacts⟩
    obtain ⟨t, ht, hfacts'⟩ := h.member name member hmember
    exact ⟨t, ht, hfacts.unique hfacts'⟩
  · rintro ⟨t, ht, rfl⟩
    obtain ⟨hmem, hname⟩ := List.mem_filter.1 (List.mem_of_getLast? ht)
    obtain rfl : t.name = name := of_decide_eq_true hname
    -- the name is among the members, and what stands there tells of the same tile
    have hnames : t.name ∈ members.map Prod.fst := by
      rw [h.names_eq, List.mem_eraseDups]
      exact List.mem_map_of_mem hmem
    obtain ⟨⟨name, member⟩, hmember, hfirst⟩ := List.mem_map.1 hnames
    obtain rfl : name = t.name := hfirst
    obtain ⟨u, hu, hfacts⟩ := h.member t.name member hmember
    obtain rfl := Option.some.inj (ht.symm.trans hu)
    exact ⟨member, hmember, hfacts⟩

/-! ### Both layouts -/

/-- If no name stands twice, each tile is the last one of its name. -/
theorem getLast?_filter_name (hnames : (tiles.map Tile.name).Nodup) {t : Tile} (ht : t ∈ tiles) :
    (tiles.filter (·.name = t.name)).getLast? = some t := by
  have hmem : t ∈ tiles.filter (·.name = t.name) := List.mem_filter.2 ⟨ht, decide_eq_true rfl⟩
  obtain ⟨u, hu⟩ := Option.isSome_iff_exists.1
    (List.getLast?_isSome.2 (List.ne_nil_of_mem hmem))
  obtain ⟨hutiles, huname⟩ := List.mem_filter.1 (List.mem_of_getLast? hu)
  rw [hu, List.inj_on_of_nodup_map hnames hutiles ht (of_decide_eq_true huname)]

/-- **The two layouts agree.** A grid that is made by insertions is exported in both. The legacy
layout lists, cell by cell, the tiles that were inserted there; the current layout lists the names,
each with the last tile that was inserted under it. So whatever the current layout says of an
instance, the legacy layout says too, and if no name stands twice, it says nothing more. -/
theorem exists_foldlM_exports (maxCol maxRow : UInt32) (header : Record) (tiles : List Tile)
    (hin : ∀ t ∈ tiles, t.x.toNat < maxCol.toNat ∧ t.y.toNat < maxRow.toNat) :
    ∃ g rows members, tiles.foldlM TileGrid.insert (create maxCol maxRow header) = .ok g ∧
      g.toJson .legacy = .ok (.list rows) ∧ g.toJson .current = .ok (.object members) ∧
      ListsCells maxCol maxRow tiles rows ∧ ListsNames tiles members ∧
      currentInstances members ⊆ legacyInstances rows ∧
      ((tiles.map Tile.name).Nodup → currentInstances members = legacyInstances rows) := by
  obtain ⟨g, hinsert, hindexed⟩ := exists_foldlM_indexed maxCol maxRow header hin
  obtain ⟨members, hcurrent, hmembers⟩ := hindexed.exists_listsNames hin
  have hrows := listsCells_rowsOf maxCol maxRow tiles
  have hsubset : currentInstances members ⊆ legacyInstances (rowsOf maxCol maxRow tiles) := by
    rw [hmembers.instances_eq, hrows.instances_eq hin]
    rintro ⟨name, f⟩ ⟨t, ht, rfl⟩
    obtain ⟨hmem, hname⟩ := List.mem_filter.1 (List.mem_of_getLast? ht)
    exact ⟨t, hmem, Prod.ext (of_decide_eq_true hname).symm rfl⟩
  refine ⟨g, _, members, hinsert, hindexed.toLegacyJson_eq, hcurrent, hrows, hmembers, hsubset,
    fun hnames => Set.Subset.antisymm hsubset ?_⟩
  rw [hmembers.instances_eq, hrows.instances_eq hin]
  rintro ⟨name, f⟩ ⟨t, ht, heq⟩
  obtain ⟨rfl, rfl⟩ := Prod.mk.inj heq
  exact ⟨t, getLast?_filter_name hnames ht, rfl⟩

theorem exists_foldlM_exports_neighbour :
    (∀ t ∈ neighbourTiles, t.x.toNat < (2 : UInt32).toNat ∧ t.y.toNat < (1 : UInt32).toNat) ∧
      (neighbourTiles.map Tile.name).Nodup ∧
      ∃ g rows members, neighbourTiles.foldlM TileGrid.insert (create 2 1 ["bil_info"]) = .ok g ∧
        g.toJson .legacy = .ok (.list rows) ∧ g.toJson .current = .ok (.object members) ∧
        rows.length = 1 ∧ members.map Prod.fst = ["a", "b", "c", "d"] ∧
        currentInstances members = legacyInstances rows ∧
        ("a", ⟨"plb", 0, 0, 4, 54, 100, 200, -1⟩) ∈ currentInstances members ∧
        (∃ member, ("a", member) ∈ members ∧ member.member? "flag" = some (.number true 1)) ∧
        ∃ row ∈ rows, ∃ cells, row = .list cells ∧ ∃ cell ∈ cells,
          ∃ records, cell.member? "val" = some (.list records) ∧ ∃ record ∈ records,
            record.member? "inst" = some (.text "a") ∧
            record.member? "unk5" = some (.number true 1) := by
  have hin : ∀ t ∈ neighbourTiles,
      t.x.toNat < (2 : UInt32).toNat ∧ t.y.toNat < (1 : UInt32).toNat := by decide
  have hnames : (neighbourTiles.map Tile.name).Nodup := by decide
  obtain ⟨g, rows, members, hinsert, hlegacy, hcurrent, hrows, hmembers, -, hsame⟩ :=
    exists_foldlM_exports 2 1 ["bil_info"] neighbourTiles hin
  -- a template is among the instances, so both layouts say its flag
  have htemplate : ("a", ⟨"plb", 0, 0, 4, 54, 100, 200, -1⟩) ∈ currentInstances members := by
    rw [hmembers.instances_eq]
    exact ⟨⟨"a", "plb", 0, 0, 4, 54, 100, 200, .template⟩, by decide, rfl⟩
  refine ⟨hin, hnames, g, rows, members, hinsert, hlegacy, hcurrent, hrows.length_eq, ?_,
    hsame hnames, htemplate, ?_, ?_⟩
  · rw [hmembers.names_eq]
    decide
  · obtain ⟨member, hmember, hsays⟩ := htemplate
    exact ⟨member, hmember, hsays.flag⟩
  · rw [hsame hnames] at htemplate
    obtain ⟨row, hrow, cells, hcells, cell, hcell, records, hval, record, hrecord, hname, hsays⟩ :=
      htemplate
    exact ⟨row, hrow, cells, hcells, cell, hcell, records, hval, record, hrecord, hname, hsays.flag⟩

end TileGrid

end ChipAtlas
