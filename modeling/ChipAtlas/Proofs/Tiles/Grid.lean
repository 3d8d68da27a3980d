import ChipAtlas.Proofs.Data.Table
import ChipAtlas.Tiles.Grid

/-!
# What a tile grid holds

A grid that tiles were inserted into holds them in the order of insertion, and each cell lists the
numbers of its tiles in that order. `TileGrid.Holds` says so, `TileGrid.Holds.insert` is the step of
one insertion, and `TileGrid.Holds.foldlM` the run.

* `TileGrid.Holds.exists_insert` — inside the grid an insertion succeeds;
* `TileGrid.Holds.cell` — a cell gives its tiles in the order of insertion.
-/

namespace ChipAtlas

/-- The tile lies at a position. -/
def Tile.At (x y : Nat) (t : Tile) : Prop := t.x.toNat = x ∧ t.y.toNat = y

instance (x y : Nat) (t : Tile) : Decidable (t.At x y) := inferInstanceAs (Decidable (_ ∧ _))

namespace TileGrid

/-- The numbers of the tiles at a position, where tiles are numbered in order. -/
def numbersAt (tiles : List Tile) (x y : Nat) : List Nat :=
  (tiles.zipIdx.filter (·.1.At x y)).map Prod.snd

theorem numbersAt_append (tiles : List Tile) (t : Tile) (x y : Nat) :
    numbersAt (tiles ++ [t]) x y =
      if t.At x y then numbersAt tiles x y ++ [tiles.length] else numbersAt tiles x y := by
  split
  · next h => simp [numbersAt, List.zipIdx_append, h]
  · next h => simp [numbersAt, List.zipIdx_append, h]

/-- To number the tiles and to forget the numbers again changes nothing. -/
theorem map_fst_filter_zipIdx (tiles : List Tile) (p : Tile → Bool) :
    (tiles.zipIdx.filter (p ·.1)).map Prod.fst = tiles.filter p := by
  have hfst := List.filter_map (f := Prod.fst) (p := p) (l := tiles.zipIdx)
  rw [List.zipIdx_map_fst] at hfst
  exact hfst.symm

/-- A grid of a size holds a row of tiles. -/
structure Holds (g : TileGrid) (maxCol maxRow : UInt32) (header : Record) (tiles : List Tile) :
    Prop where
  header_eq : g.header = header
  maxCol_eq : g.maxCol = maxCol
  maxRow_eq : g.maxRow = maxRow
  tiles_eq : g.tiles.toList = tiles
  cells_size : g.cells.rows = maxRow.toNat ∧ g.cells.cols = maxCol.toNat
  templates_size : g.templates.rows = maxRow.toNat ∧ g.templates.cols = maxCol.toNat
  cells_get? : ∀ x < maxCol.toNat, ∀ y < maxRow.toNat,
    g.cells.get? y x = some (numbersAt tiles x y)

theorem holds_create (maxCol maxRow : UInt32) (header : Record) :
    (create maxCol maxRow header).Holds maxCol maxRow header [] where
  header_eq := rfl
  maxCol_eq := rfl
  maxRow_eq := rfl
  tiles_eq := rfl
  cells_size := ⟨rfl, rfl⟩
  templates_size := ⟨rfl, rfl⟩
  cells_get? _ hx _ hy := Table.get?_replicate [] hy hx

/-- A position inside a grid. -/
theorem contains_iff {g : TileGrid} {x y : Nat} :
    g.contains x y = true ↔ x < g.maxCol.toNat ∧ y < g.maxRow.toNat := by
  simp only [contains, Bool.and_eq_true, decide_eq_true_eq]
  omega

theorem modifyAt_eq_ok {α : Type} {table table' : Table α} {x y : Nat} {f : α → α} :
    modifyAt table x y f = .ok table' ↔ table.modify? y x f = some table' := by
  unfold modifyAt
  split
  · next found h => simp [h]
  · next h => simp [h]

theorem entryAt_eq_ok {α : Type} {table : Table α} {x y : Nat} {a : α} :
    entryAt table x y = .ok a ↔ table.get? y x = some a := by
  unfold entryAt
  split
  · next found h => simp [h]
  · next h => simp [h]

theorem bind_eq_ok {α β : Type} {m : Checked α} {f : α → Checked β} {b : β} :
    (m >>= f) = .ok b ↔ ∃ a, m = .ok a ∧ f a = .ok b := by
  cases m with
  | ok a =>
    refine ⟨?_, ?_⟩
    · intro h
      exact ⟨a, rfl, h⟩
    · rintro ⟨a', ha, h⟩
      obtain rfl := Except.ok.inj ha
      exact h
  | error index => exact ⟨nofun, nofun⟩

/-- What an insertion changes: the cell lists one more number, and a template and the name of the
tile point to it. -/
theorem insert_eq_ok {g g' : TileGrid} {t : Tile} :
    g.insert t = .ok g' ↔
      ∃ cells templates,
        g.cells.modify? t.y.toNat t.x.toNat (· ++ [g.tiles.size]) = some cells ∧
        (if t.flag = .template then
          g.templates.modify? t.y.toNat t.x.toNat (·.insert t.kind g.tiles.size) = some templates
        else g.templates = templates) ∧
        g' = { g with
          tiles := g.tiles.push t
          cells
          templates
          byName := g.byName.insert t.name g.tiles.size } := by
  rw [insert]
  by_cases hflag : t.flag = .template
  · simp only [if_pos hflag, bind_eq_ok, modifyAt_eq_ok]
    refine ⟨?_, ?_⟩
    · rintro ⟨cells, hcells, templates, htemplates, h⟩
      exact ⟨cells, templates, hcells, htemplates, (Except.ok.inj h).symm⟩
    · rintro ⟨cells, templates, hcells, htemplates, rfl⟩
      exact ⟨cells, hcells, templates, htemplates, rfl⟩
  · simp only [if_neg hflag, bind_eq_ok, modifyAt_eq_ok]
    refine ⟨?_, ?_⟩
    · rintro ⟨cells, hcells, templates, htemplates, h⟩
      exact ⟨cells, templates, hcells, Except.ok.inj htemplates, (Except.ok.inj h).symm⟩
    · rintro ⟨cells, templates, hcells, rfl, rfl⟩
      exact ⟨cells, hcells, g.templates, rfl, rfl⟩

/-- Inside the grid an insertion succeeds. -/
theorem Holds.exists_insert {g : TileGrid} {maxCol maxRow : UInt32} {header : Record}
    {tiles : List Tile} (h : g.Holds maxCol maxRow header tiles) {t : Tile}
    (hx : t.x.toNat < maxCol.toNat) (hy : t.y.toNat < maxRow.toNat) :
    ∃ g', g.insert t = .ok g' := by
  obtain ⟨hrows, hcols⟩ := h.cells_size
  obtain ⟨hrows', hcols'⟩ := h.templates_size
  obtain ⟨cells, hcells⟩ := Table.exists_modify? (t := g.cells) (· ++ [g.tiles.size])
    (hrows ▸ hy) (hcols ▸ hx)
  -- both tables have the size of the grid, so the position is inside both
  obtain ⟨templates, htemplates⟩ := Table.exists_modify? (t := g.templates)
    (·.insert t.kind g.tiles.size) (hrows' ▸ hy) (hcols' ▸ hx)
  by_cases hflag : t.flag = .template
  · exact ⟨_, insert_eq_ok.2
      ⟨cells, templates, hcells, by rw [if_pos hflag]; exact htemplates, rfl⟩⟩
  · exact ⟨_, insert_eq_ok.2 ⟨cells, g.templates, hcells, by rw [if_neg hflag], rfl⟩⟩

/-- **One insertion.** The grid holds one more tile, under the next number and in its cell. -/
theorem Holds.insert {g g' : TileGrid} {maxCol maxRow : UInt32} {header : Record}
    {tiles : List Tile} (h : g.Holds maxCol maxRow header tiles) {t : Tile}
    (hinsert : g.insert t = .ok g') : g'.Holds maxCol maxRow header (tiles ++ [t]) := by
  obtain ⟨cells, templates, hcells, htemplates, rfl⟩ := insert_eq_ok.1 hinsert
  have hnumber : g.tiles.size = tiles.length := by rw [← h.tiles_eq, Array.length_toList]
  obtain ⟨-, hrows, hcols⟩ := Table.modify?_eq_some hcells
  refine ⟨h.header_eq, h.maxCol_eq, h.maxRow_eq, ?_, ?_, ?_, fun x hx y hy => ?_⟩
  · rw [Array.toList_push, h.tiles_eq]
  · exact ⟨hrows.trans h.cells_size.1, hcols.trans h.cells_size.2⟩
  · split at htemplates
    · obtain ⟨-, hrows', hcols'⟩ := Table.modify?_eq_some htemplates
      exact ⟨hrows'.trans h.templates_size.1, hcols'.trans h.templates_size.2⟩
    · exact htemplates ▸ h.templates_size
  · rw [Table.get?_of_modify? hcells, h.cells_get? x hx y hy, numbersAt_append, hnumber]
    -- the number goes to the cell of the tile and to no other
    by_cases hat : t.At x y
    · rw [if_pos ⟨hat.2.symm, hat.1.symm⟩, if_pos hat]
      rfl
    · rw [if_neg fun ⟨hy, hx⟩ => hat ⟨hx.symm, hy.symm⟩, if_neg hat]

/-- **A run of insertions.** From the grid without tiles, insertions lead to a grid that holds the
tiles in their order. -/
theorem Holds.foldlM {g g' : TileGrid} {maxCol maxRow : UInt32} {header : Record}
    {tiles more : List Tile} (h : g.Holds maxCol maxRow header tiles)
    (hinsert : more.foldlM TileGrid.insert g = .ok g') :
    g'.Holds maxCol maxRow header (tiles ++ more) := by
  -- the row that is held grows by the tile that is inserted
  induction more generalizing g tiles with
  | nil =>
    obtain rfl := Except.ok.inj hinsert
    rwa [List.append_nil]
  | cons t more ih =>
    rw [List.foldlM_cons, bind_eq_ok] at hinsert
    obtain ⟨g₁, hfirst, hmore⟩ := hinsert
    have := ih (h.insert hfirst) hmore
    rwa [List.append_assoc, List.singleton_append] at this

/-- Insertions keep the header. -/
theorem header_of_foldlM {g : TileGrid} {maxCol maxRow : UInt32} {header : Record}
    {tiles : List Tile}
    (hinsert : tiles.foldlM TileGrid.insert (create maxCol maxRow header) = .ok g) :
    g.header = header :=
  ((holds_create maxCol maxRow header).foldlM hinsert).header_eq

/-- Inside the grid all insertions succeed. -/
theorem Holds.exists_foldlM {g : TileGrid} {maxCol maxRow : UInt32} {header : Record}
    {tiles more : List Tile} (h : g.Holds maxCol maxRow header tiles)
    (hin : ∀ t ∈ more, t.x.toNat < maxCol.toNat ∧ t.y.toNat < maxRow.toNat) :
    ∃ g', more.foldlM TileGrid.insert g = .ok g' := by
  induction more generalizing g tiles with
  | nil => exact ⟨g, rfl⟩
  | cons t more ih =>
    obtain ⟨hx, hy⟩ := hin t List.mem_cons_self
    obtain ⟨g₁, hfirst⟩ := h.exists_insert hx hy
    obtain ⟨g', hmore⟩ := ih (h.insert hfirst) fun u hu => hin u (List.mem_cons_of_mem _ hu)
    exact ⟨g', by rw [List.foldlM_cons, bind_eq_ok]; exact ⟨g₁, hfirst, hmore⟩⟩

/-- The tiles behind a row of numbers. -/
theorem mapM_tile_of_forall {g : TileGrid} {entries : List (Tile × Nat)}
    (h : ∀ e ∈ entries, g.tiles.toList[e.2]? = some e.1) :
    (entries.map Prod.snd).mapM g.tile = .ok (entries.map Prod.fst) := by
  induction entries with
  | nil => rfl
  | cons e entries ih =>
    have hfirst : g.tile e.2 = .ok e.1 := by
      have := h e List.mem_cons_self
      rw [Array.getElem?_toList] at this
      rw [tile, this]
    rw [List.map_cons, List.mapM_cons, hfirst, ih fun e he => h e (List.mem_cons_of_mem _ he)]
    rfl

/-- **A cell gives its tiles**, in the order in which they were inserted. -/
theorem Holds.cell {g : TileGrid} {maxCol maxRow : UInt32} {header : Record} {tiles : List Tile}
    (h : g.Holds maxCol maxRow header tiles) {x y : UInt32} (hx : x < maxCol) (hy : y < maxRow) :
    g.cell x y = .ok (tiles.filter (·.At x.toNat y.toNat)) := by
  have hentry : entryAt g.cells x.toNat y.toNat = .ok (numbersAt tiles x.toNat y.toNat) :=
    entryAt_eq_ok.2 (h.cells_get? _ (UInt32.lt_iff_toNat_lt.1 hx) _ (UInt32.lt_iff_toNat_lt.1 hy))
  rw [TileGrid.cell, bind_eq_ok]
  refine ⟨_, hentry, ?_⟩
  rw [numbersAt, mapM_tile_of_forall]
  · rw [map_fst_filter_zipIdx tiles fun t => decide (t.At x.toNat y.toNat)]
  · intro e he
    rw [h.tiles_eq]
    exact List.mem_zipIdx_iff_getElem?.1 (List.mem_filter.1 he).1

end TileGrid

end ChipAtlas
