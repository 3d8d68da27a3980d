import ChipAtlas.Format.TileTable
import ChipAtlas.Proofs.Bits.Catalog
import ChipAtlas.Proofs.Stateful
import ChipAtlas.Proofs.Tiles.Grid
import Mathlib.Order.Bounds.Basic

/-!
# The indices of a tile grid

A grid keeps its tiles once and refers to them by number from three sides: the tiles of a cell, the
templates of a cell by kind, and all tiles by name. One insertion changes all three, each by a rule
of its own. Seen from outside they follow one rule: each index is read off the row of the inserted
tiles, and where one number is kept it is the greatest of those that could be.

`TileGrid.numbers` picks the numbers of the tiles with a property. `TileGrid.Indexed` says of every
index which of these rows it is made of; it holds of the grid without tiles, one insertion keeps it
(`TileGrid.Indexed.insert`), and so does a run of insertions.

* `TileGrid.getLast?_numbers` — the last number of a row is the greatest;
* `TileGrid.Represents` — what the indices come to, without mention of how they are kept;
* `TileGrid.exists_foldlM_represents` — insertions inside the grid succeed, lead to a grid that
  represents the tiles, and report as many names as there are more tiles than names.
-/

namespace ChipAtlas

namespace TileGrid

/-! ### Rows of numbers -/

/-- The numbers of the tiles with a property, where tiles are numbered in order. -/
def numbers (tiles : List Tile) (p : Tile → Bool) : List Nat :=
  (tiles.zipIdx.filter (p ·.1)).map Prod.snd

variable {tiles : List Tile} {p : Tile → Bool} {id : Nat}

theorem numbersAt_eq_numbers (tiles : List Tile) (x y : Nat) :
    numbersAt tiles x y = numbers tiles (·.At x y) := rfl

theorem numbers_append (tiles : List Tile) (t : Tile) (p : Tile → Bool) :
    numbers (tiles ++ [t]) p =
      if p t then numbers tiles p ++ [tiles.length] else numbers tiles p := by
  split
  · next h => simp [numbers, List.zipIdx_append, h]
  · next h => simp [numbers, List.zipIdx_append, h]

theorem mem_numbers : id ∈ numbers tiles p ↔ ∃ t, tiles[id]? = some t ∧ p t := by
  simp only [numbers, List.mem_map, List.mem_filter, List.mem_zipIdx_iff_getElem?]
  refine ⟨?_, ?_⟩
  · rintro ⟨e, ⟨hget, hp⟩, rfl⟩
    exact ⟨e.1, hget, hp⟩
  · rintro ⟨t, hget, hp⟩
    exact ⟨(t, id), ⟨hget, hp⟩, rfl⟩

/-- Numbers rise along a row. -/
theorem pairwise_numbers (tiles : List Tile) (p : Tile → Bool) :
    (numbers tiles p).Pairwise (· < ·) := by
  have hall : (tiles.zipIdx.map Prod.snd).Pairwise (· < ·) := by
    rw [List.zipIdx_map_snd]
    exact List.pairwise_lt_range'
  exact hall.sublist (List.filter_sublist.map _)

theorem isGreatest_of_getLast? (h : (numbers tiles p).getLast? = some id) :
    IsGreatest {i | ∃ t, tiles[i]? = some t ∧ p t} id := by
  obtain ⟨before, heq⟩ := List.getLast?_eq_some_iff.1 h
  have hrise := heq ▸ pairwise_numbers tiles p
  refine ⟨mem_numbers.1 (heq ▸ List.mem_append_right _ List.mem_cons_self), fun i hi => ?_⟩
  -- a number is the last one, or it stands before the last one and is less
  rcases List.mem_append.1 (heq ▸ mem_numbers.2 hi) with hbefore | hlast
  · exact Nat.le_of_lt ((List.pairwise_append.1 hrise).2.2 i hbefore id List.mem_cons_self)
  · exact Nat.le_of_eq (List.mem_singleton.1 hlast)

/-- **The last number of a row is the greatest.** -/
theorem getLast?_numbers :
    (numbers tiles p).getLast? = some id ↔ IsGreatest {i | ∃ t, tiles[i]? = some t ∧ p t} id := by
  refine ⟨isGreatest_of_getLast?, fun hgreatest => ?_⟩
  cases hlast : (numbers tiles p).getLast? with
  | none =>
    rw [List.getLast?_eq_none_iff] at hlast
    exact absurd (mem_numbers.2 hgreatest.1) (hlast ▸ List.not_mem_nil)
  | some last => rw [(isGreatest_of_getLast? hlast).unique hgreatest]

/-- The tiles behind a row of numbers are the tiles with the property. -/
theorem map_getElem?_numbers (tiles : List Tile) (p : Tile → Bool) :
    (numbers tiles p).map (tiles[·]?) = (tiles.filter p).map some := by
  rw [← map_fst_filter_zipIdx tiles p, numbers, List.map_map, List.map_map]
  exact List.map_congr_left fun e he => List.mem_zipIdx_iff_getElem?.1 (List.mem_filter.1 he).1

/-- The tile behind the last number is the last tile with the property. -/
theorem getLast?_numbers_bind (tiles : List Tile) (p : Tile → Bool) :
    (numbers tiles p).getLast?.bind (tiles[·]?) = (tiles.filter p).getLast? :=
  calc (numbers tiles p).getLast?.bind (tiles[·]?)
      = ((numbers tiles p).map (tiles[·]?)).getLast?.bind id := by
        rw [List.getLast?_map, Option.bind_map, Function.id_comp]
    _ = ((tiles.filter p).map some).getLast?.bind id := by rw [map_getElem?_numbers]
    _ = (tiles.filter p).getLast? := by
        rw [List.getLast?_map, Option.bind_map, Function.id_comp, Option.bind_fun_some]

theorem getLast?_numbers_append (tiles : List Tile) (t : Tile) (p : Tile → Bool) :
    (numbers (tiles ++ [t]) p).getLast? =
      if p t then some tiles.length else (numbers tiles p).getLast? := by
  rw [numbers_append]
  split
  · exact List.getLast?_concat
  · rfl

/-- A name is taken as soon as a tile has it. -/
theorem isSome_getLast?_numbers_name (tiles : List Tile) (name : String) :
    (numbers tiles (·.name = name)).getLast?.isSome ↔ name ∈ tiles.map Tile.name := by
  rw [List.getLast?_isSome]
  refine ⟨fun hne => ?_, fun hmem => ?_⟩
  · obtain ⟨id, hid⟩ := List.exists_mem_of_ne_nil _ hne
    obtain ⟨t, hget, hname⟩ := mem_numbers.1 hid
    exact List.mem_map.2 ⟨t, List.mem_of_getElem? hget, of_decide_eq_true hname⟩
  · obtain ⟨t, ht, rfl⟩ := List.mem_map.1 hmem
    obtain ⟨id, hget⟩ := List.mem_iff_getElem?.1 ht
    exact List.ne_nil_of_mem (mem_numbers.2 ⟨t, hget, decide_eq_true rfl⟩)

/-! ### What the indices are made of -/

end TileGrid

/-- The tile is a template of a kind at a position. -/
def Tile.IsTemplate (x y : Nat) (kind : String) (t : Tile) : Prop :=
  t.At x y ∧ t.kind = kind ∧ t.flag = .template

instance (x y : Nat) (kind : String) (t : Tile) : Decidable (t.IsTemplate x y kind) :=
  inferInstanceAs (Decidable (_ ∧ _))

namespace TileGrid

/-- A grid holds a row of tiles, and keeps the number of the last template of a kind in a cell and
of the last tile of a name. -/
structure Indexed (g : TileGrid) (maxCol maxRow : UInt32) (header : Record) (tiles : List Tile) :
    Prop extends g.Holds maxCol maxRow header tiles where
  templates_get? : ∀ x < maxCol.toNat, ∀ y < maxRow.toNat, ∃ kinds,
    g.templates.get? y x = some kinds ∧
      ∀ kind, kinds.get? kind = (numbers tiles (·.IsTemplate x y kind)).getLast?
  byName_keys : g.byName.keys = (tiles.map Tile.name).eraseDups
  byName_get? : ∀ name, g.byName.get? name = (numbers tiles (·.name = name)).getLast?

theorem indexed_create (maxCol maxRow : UInt32) (header : Record) :
    (create maxCol maxRow header).Indexed maxCol maxRow header [] where
  toHolds := holds_create maxCol maxRow header
  templates_get? _ hx _ hy := ⟨∅, Table.get?_replicate ∅ hy hx, fun _ => rfl⟩
  byName_keys := rfl
  byName_get? _ := rfl

variable {g g' : TileGrid} {maxCol maxRow : UInt32} {header : Record} {tiles : List Tile}
  {t : Tile}

/-- **One insertion.** Every index is still read off the row of tiles, which has one more. -/
theorem Indexed.insert (h : g.Indexed maxCol maxRow header tiles) (hinsert : g.insert t = .ok g') :
    g'.Indexed maxCol maxRow header (tiles ++ [t]) := by
  have hholds := h.toHolds.insert hinsert
  obtain ⟨cells, templates, -, htemplates, rfl⟩ := insert_eq_ok.1 hinsert
  have hnumber : g.tiles.size = tiles.length := by rw [← h.tiles_eq, Array.length_toList]
  refine ⟨hholds, fun x hx y hy => ?_, ?_, fun name => ?_⟩
  · obtain ⟨kinds, hkinds, hget⟩ := h.templates_get? x hx y hy
    by_cases hflag : t.flag = .template
    · rw [if_pos hflag] at htemplates
      rw [Table.get?_of_modify? htemplates, hkinds]
      by_cases hat : t.At x y
      · -- the cell of the template: its kind is new or replaced, the other kinds stay
        refine ⟨kinds.insert t.kind g.tiles.size, if_pos ⟨hat.2.symm, hat.1.symm⟩, fun kind => ?_⟩
        rw [SortedMap.get?_insert, getLast?_numbers_append, hget, hnumber]
        simp [Tile.IsTemplate, hat, hflag]
      · refine ⟨kinds, if_neg fun ⟨hy, hx⟩ => hat ⟨hx.symm, hy.symm⟩, fun kind => ?_⟩
        rw [getLast?_numbers_append, hget]
        simp [Tile.IsTemplate, hat]
    · -- no template: nothing is changed
      rw [if_neg hflag] at htemplates
      refine ⟨kinds, htemplates ▸ hkinds, fun kind => ?_⟩
      rw [getLast?_numbers_append, hget]
      simp [Tile.IsTemplate, hflag]
  · rw [OrderedMap.keys_insert, h.byName_keys, List.map_append, List.map_singleton,
      OrderedMap.eraseDups_append_singleton]
    simp only [List.mem_eraseDups]
  · rw [OrderedMap.get?_insert, getLast?_numbers_append, h.byName_get?, hnumber]
    simp

/-- The report of a tile that is inserted behind others: if its name is taken, the last tile of this
name is replaced. -/
def takeOverOf (before : List Tile) (t : Tile) : Option Event :=
  (numbers before (·.name = t.name)).getLast?.map (.nameTakenOver t.name)

/-- The reports of tiles that are inserted behind others. -/
def takeOvers (before : List Tile) : List Tile → List Event
  | [] => []
  | t :: more => (takeOverOf before t).toList ++ takeOvers (before ++ [t]) more

theorem Indexed.insertScript_run (h : g.Indexed maxCol maxRow header tiles)
    (hinsert : g.insert t = .ok g') (s : Reading) :
    (g.insertScript t).run s =
      .ok g' { s with log := s.log ++ (takeOverOf tiles t).toList.toArray } := by
  have hreport : g.takeOver? t = takeOverOf tiles t := by
    rw [takeOver?, takeOverOf, h.byName_get?]
  rw [insertScript, hinsert, hreport]
  cases takeOverOf tiles t with
  | none => simp; rfl
  | some event => simp; rfl

/-- A tile is reported or has a new name. -/
theorem length_takeOverOf (before : List Tile) (t : Tile) :
    (takeOverOf before t).toList.length + ((before ++ [t]).map Tile.name).eraseDups.length =
      (before.map Tile.name).eraseDups.length + 1 := by
  rw [List.map_append, List.map_singleton, OrderedMap.eraseDups_append_singleton, takeOverOf]
  have htaken := isSome_getLast?_numbers_name before t.name
  split
  · next hmem =>
    obtain ⟨id, hid⟩ := Option.isSome_iff_exists.1 (htaken.2 hmem)
    simp [hid, Nat.add_comm]
  · next hnew =>
    have hnone := Option.not_isSome_iff_eq_none.1 (mt htaken.1 hnew)
    simp [hnone]

theorem length_takeOvers (before more : List Tile) :
    (takeOvers before more).length + ((before ++ more).map Tile.name).eraseDups.length =
      (before.map Tile.name).eraseDups.length + more.length := by
  induction more generalizing before with
  | nil => simp [takeOvers]
  | cons t more ih =>
    have hfirst := length_takeOverOf before t
    have hmore := ih (before ++ [t])
    rw [List.append_assoc, List.singleton_append] at hmore
    rw [takeOvers, List.length_append, List.length_cons]
    omega

/-- Only the names of the tiles are reported as taken over. -/
theorem mem_takeOvers {before more : List Tile} {e : Event} (h : e ∈ takeOvers before more) :
    ∃ t ∈ more, ∃ id, e = .nameTakenOver t.name id := by
  induction more generalizing before with
  | nil => exact absurd h List.not_mem_nil
  | cons t more ih =>
    rcases List.mem_append.1 h with hfirst | hmore
    · obtain ⟨id, -, rfl⟩ := Option.map_eq_some_iff.1 (Option.mem_toList.1 hfirst)
      exact ⟨t, List.mem_cons_self, id, rfl⟩
    · obtain ⟨u, hu, id, rfl⟩ := ih hmore
      exact ⟨u, List.mem_cons_of_mem _ hu, id, rfl⟩

/-- **A run of insertions.** Inside the grid insertions succeed, every index is read off the row of
tiles, and nothing but the names that are taken over is reported. -/
theorem Indexed.exists_foldlM (h : g.Indexed maxCol maxRow header tiles) {more : List Tile}
    (hin : ∀ t ∈ more, t.x.toNat < maxCol.toNat ∧ t.y.toNat < maxRow.toNat) (s : Reading) :
    ∃ g', g'.Indexed maxCol maxRow header (tiles ++ more) ∧
      more.foldlM TileGrid.insert g = .ok g' ∧
      (more.foldlM insertScript g).run s =
        .ok g' { s with log := s.log ++ (takeOvers tiles more).toArray } := by
  induction more generalizing g tiles s with
  | nil => exact ⟨g, by rwa [List.append_nil], rfl, by simp [takeOvers]; rfl⟩
  | cons t more ih =>
    obtain ⟨hx, hy⟩ := hin t List.mem_cons_self
    obtain ⟨g₁, hfirst⟩ := h.exists_insert hx hy
    obtain ⟨g', hindexed, hinsert, hrun⟩ := ih (h.insert hfirst)
      (fun u hu => hin u (List.mem_cons_of_mem _ hu))
      { s with log := s.log ++ (takeOverOf tiles t).toList.toArray }
    refine ⟨g', ?_, ?_, ?_⟩
    · rwa [List.append_assoc, List.singleton_append] at hindexed
    · rw [List.foldlM_cons, bind_eq_ok]
      exact ⟨g₁, hfirst, hinsert⟩
    · rw [List.foldlM_cons, Script.run_bind, Stateful.bind_of_ok (h.insertScript_run hfirst s),
        hrun, takeOvers, ← List.append_toArray, ← Array.append_assoc]

/-- An insertion that succeeds is made inside the grid. -/
theorem Holds.inside_of_insert (h : g.Holds maxCol maxRow header tiles)
    (hinsert : g.insert t = .ok g') : t.x.toNat < maxCol.toNat ∧ t.y.toNat < maxRow.toNat := by
  obtain ⟨cells, -, hcells, -, -⟩ := insert_eq_ok.1 hinsert
  obtain ⟨⟨hrow, hcol⟩, -⟩ := Table.modify?_eq_some hcells
  exact ⟨h.cells_size.2 ▸ hcol, h.cells_size.1 ▸ hrow⟩

/-- A run of insertions that succeeds is made inside the grid, and every index is read off the row
of tiles. -/
theorem Indexed.foldlM (h : g.Indexed maxCol maxRow header tiles) {more : List Tile}
    (hinsert : more.foldlM TileGrid.insert g = .ok g') :
    g'.Indexed maxCol maxRow header (tiles ++ more) ∧
      ∀ t ∈ more, t.x.toNat < maxCol.toNat ∧ t.y.toNat < maxRow.toNat := by
  induction more generalizing g tiles with
  | nil =>
    obtain rfl := Except.ok.inj hinsert
    rw [List.append_nil]
    exact ⟨h, nofun⟩
  | cons t more ih =>
    rw [List.foldlM_cons, bind_eq_ok] at hinsert
    obtain ⟨g₁, hfirst, hmore⟩ := hinsert
    obtain ⟨hindexed, hinside⟩ := ih (h.insert hfirst) hmore
    rw [List.append_assoc, List.singleton_append] at hindexed
    exact ⟨hindexed, List.forall_mem_cons.2 ⟨h.inside_of_insert hfirst, hinside⟩⟩

/-- Tiles that lie inside a grid make a grid whose indices are read off them. -/
theorem exists_foldlM_indexed (maxCol maxRow : UInt32) (header : Record)
    (hin : ∀ t ∈ tiles, t.x.toNat < maxCol.toNat ∧ t.y.toNat < maxRow.toNat) :
    ∃ g, tiles.foldlM TileGrid.insert (create maxCol maxRow header) = .ok g ∧
      g.Indexed maxCol maxRow header tiles := by
  obtain ⟨g, hindexed, hinsert, -⟩ :=
    (indexed_create maxCol maxRow header).exists_foldlM hin { lines := [] }
  rw [List.nil_append] at hindexed
  exact ⟨g, hinsert, hindexed⟩

/-! ### What the indices come to -/

/-- A grid stands for a row of tiles: the numbers are the positions in the row, and every index is
told by the row alone. -/
structure Represents (g : TileGrid) (maxCol maxRow : UInt32) (tiles : List Tile) : Prop where
  /-- Tiles are numbered in the order in which they were inserted. -/
  tiles_eq : g.tiles.toList = tiles
  /-- There is a list of numbers for each cell of the grid, and for no other. -/
  cells_size : ∀ x y : Nat, (g.cells.get? y x).isSome ↔ x < maxCol.toNat ∧ y < maxRow.toNat
  /-- A cell lists the numbers of the tiles at its position, rising. -/
  cells_get? : ∀ (x y : Nat) (ids : List Nat), g.cells.get? y x = some ids →
    ids.Pairwise (· < ·) ∧ ∀ id, id ∈ ids ↔ ∃ t, tiles[id]? = some t ∧ t.At x y
  /-- Each number is listed by the cell of its tile, once, and by no other cell. -/
  home : ∀ (id : Nat) (t : Tile), tiles[id]? = some t →
    (∃ ids, g.cells.get? t.y.toNat t.x.toNat = some ids ∧ ids.count id = 1) ∧
      ∀ (x y : Nat) (ids : List Nat), g.cells.get? y x = some ids → id ∈ ids → t.At x y
  /-- There are templates for each cell of the grid, and for no other. -/
  templates_size : ∀ x y : Nat, (g.templates.get? y x).isSome ↔ x < maxCol.toNat ∧ y < maxRow.toNat
  /-- The template of a kind in a cell is the greatest of those that could be, and there are no
  entries besides. -/
  templates_get? : ∀ (x y : Nat) (kinds : SortedMap Nat), g.templates.get? y x = some kinds →
    ∀ kind id, (kind, id) ∈ kinds.entries ↔
      IsGreatest {i | ∃ t, tiles[i]? = some t ∧ t.At x y ∧ t.kind = kind ∧ t.flag = .template} id
  /-- The names stand in the order in which they were first inserted. -/
  byName_keys : g.byName.keys = (tiles.map Tile.name).eraseDups
  /-- A name stands for the greatest number of a tile that has it. -/
  byName_entries : ∀ name id, (name, id) ∈ g.byName.entries ↔
    IsGreatest {i | ∃ t, tiles[i]? = some t ∧ t.name = name} id
  /-- A name is looked up as the last tile that was inserted under it. -/
  named : ∀ name, g.named name = .ok (tiles.filter (·.name = name)).getLast?
  /-- A template is looked up as the last one of its kind at the position. -/
  template : ∀ (x y : Nat) (kind : String), g.template x y kind =
    .ok (tiles.filter fun t => t.At x y ∧ t.kind = kind ∧ t.flag = .template).getLast?
  /-- Outside the grid there are no templates. -/
  template_outside : ∀ (x y : Int) (kind : String),
    ¬ (0 ≤ x ∧ x < maxCol.toNat ∧ 0 ≤ y ∧ y < maxRow.toNat) → g.template x y kind = .ok none

/-- The tile behind the last number of a row. -/
theorem Holds.tile_of_getLast? {p : Tile → Bool} {id : Nat}
    (h : g.Holds maxCol maxRow header tiles) (hlast : (numbers tiles p).getLast? = some id) :
    ∃ t, g.tile id = .ok t ∧ (tiles.filter p).getLast? = some t := by
  obtain ⟨t, hget, -⟩ := (getLast?_numbers.1 hlast).1
  refine ⟨t, ?_, ?_⟩
  · have hget' := hget
    rw [← h.tiles_eq, Array.getElem?_toList] at hget'
    rw [tile, hget']
  · rw [← getLast?_numbers_bind, hlast]
    exact hget

theorem Indexed.named (h : g.Indexed maxCol maxRow header tiles) (name : String) :
    g.named name = .ok (tiles.filter (·.name = name)).getLast? := by
  have hget := h.byName_get? name
  rw [TileGrid.named]
  split
  · next id hid =>
    obtain ⟨t, htile, hlast⟩ := h.tile_of_getLast? (hget ▸ hid)
    rw [htile, hlast]
    rfl
  · next hnone =>
    rw [← getLast?_numbers_bind, ← hget, hnone]
    rfl

theorem template_of_not_contains {x y : Int} (h : g.contains x y = false) (kind : String) :
    g.template x y kind = .ok none := by
  rw [TileGrid.template, h]
  rfl

theorem Indexed.template (h : g.Indexed maxCol maxRow header tiles)
    (hin : ∀ t ∈ tiles, t.x.toNat < maxCol.toNat ∧ t.y.toNat < maxRow.toNat) (x y : Nat)
    (kind : String) :
    g.template x y kind = .ok (tiles.filter (·.IsTemplate x y kind)).getLast? := by
  by_cases hinside : x < maxCol.toNat ∧ y < maxRow.toNat
  · have hcontains : g.contains x y = true := by
      rw [contains_iff, h.maxCol_eq, h.maxRow_eq]
      exact hinside
    obtain ⟨kinds, hkinds, hget⟩ := h.templates_get? x hinside.1 y hinside.2
    rw [TileGrid.template, if_pos hcontains, bind_eq_ok]
    refine ⟨kinds, entryAt_eq_ok.2 hkinds, ?_⟩
    split
    · next id hid =>
      obtain ⟨t, htile, hlast⟩ := h.tile_of_getLast? (hget kind ▸ hid)
      rw [htile, hlast]
      rfl
    · next hnone =>
      rw [← getLast?_numbers_bind, ← hget, hnone]
      rfl
  · -- no tile lies there
    have hcontains : g.contains x y = false := by
      rw [← Bool.not_eq_true, contains_iff, h.maxCol_eq, h.maxRow_eq]
      exact hinside
    have hnil : tiles.filter (·.IsTemplate x y kind) = [] := by
      refine List.filter_eq_nil_iff.2 fun t ht htemplate => hinside ?_
      obtain ⟨⟨rfl, rfl⟩, -⟩ := of_decide_eq_true htemplate
      exact hin t ht
    rw [template_of_not_contains hcontains, hnil]
    rfl

theorem Indexed.represents (h : g.Indexed maxCol maxRow header tiles)
    (hin : ∀ t ∈ tiles, t.x.toNat < maxCol.toNat ∧ t.y.toNat < maxRow.toNat) :
    g.Represents maxCol maxRow tiles := by
  have hcells : ∀ x y : Nat,
      (g.cells.get? y x).isSome ↔ x < maxCol.toNat ∧ y < maxRow.toNat := fun x y => by
    rw [Table.isSome_get?_iff, h.cells_size.1, h.cells_size.2, and_comm]
  have htemplates : ∀ x y : Nat,
      (g.templates.get? y x).isSome ↔ x < maxCol.toNat ∧ y < maxRow.toNat := fun x y => by
    rw [Table.isSome_get?_iff, h.templates_size.1, h.templates_size.2, and_comm]
  have hids : ∀ {x y : Nat} {ids : List Nat}, g.cells.get? y x = some ids →
      ids = numbers tiles (·.At x y) := by
    intro x y ids hids
    obtain ⟨hx, hy⟩ := (hcells x y).1 (hids ▸ rfl)
    exact Option.some.inj (hids.symm.trans (h.cells_get? x hx y hy))
  refine
    { tiles_eq := h.tiles_eq
      cells_size := hcells
      cells_get? := ?_
      home := ?_
      templates_size := htemplates
      templates_get? := ?_
      byName_keys := h.byName_keys
      byName_entries := ?_
      named := h.named
      template := h.template hin
      template_outside := ?_ }
  · intro x y ids hget
    rw [hids hget]
    exact ⟨pairwise_numbers _ _, fun id => by simp [mem_numbers]⟩
  · intro id t ht
    obtain ⟨hx, hy⟩ := hin t (List.mem_of_getElem? ht)
    refine ⟨⟨_, h.cells_get? _ hx _ hy, ?_⟩, fun x y ids hget hid => ?_⟩
    · -- numbers rise along the list, so none is listed twice
      have hnodup := (pairwise_numbers tiles (·.At t.x.toNat t.y.toNat)).imp Nat.ne_of_lt
      rw [numbersAt_eq_numbers, List.Nodup.count hnodup]
      exact if_pos (mem_numbers.2 ⟨t, ht, by simp [Tile.At]⟩)
    · obtain ⟨u, hu, hat⟩ := mem_numbers.1 (hids hget ▸ hid)
      obtain rfl := Option.some.inj (ht.symm.trans hu)
      exact of_decide_eq_true hat
  · intro x y kinds hkinds kind id
    obtain ⟨hx, hy⟩ := (htemplates x y).1 (hkinds ▸ rfl)
    obtain ⟨kinds', hkinds', hget⟩ := h.templates_get? x hx y hy
    obtain rfl := Option.some.inj (hkinds.symm.trans hkinds')
    rw [← SortedMap.get?_eq_some_iff, hget, getLast?_numbers]
    simp only [decide_eq_true_eq]
    rfl
  · intro name id
    rw [OrderedMap.mem_entries_iff, h.byName_get?, getLast?_numbers]
    simp
  · intro x y kind houtside
    refine template_of_not_contains (Bool.eq_false_iff.2 fun hcontains => houtside ?_) kind
    simp only [contains, h.maxCol_eq, h.maxRow_eq, Bool.and_eq_true, decide_eq_true_eq]
      at hcontains
    omega

/-- **Insertions.** Tiles that lie inside a grid can be inserted into it one after the other. The
grid then stands for the row of tiles, whatever their names, kinds and flags, and each tile has
either brought a name or been reported as taking one over. -/
theorem exists_foldlM_represents (maxCol maxRow : UInt32) (header : Record) (tiles : List Tile)
    (hin : ∀ t ∈ tiles, t.x.toNat < maxCol.toNat ∧ t.y.toNat < maxRow.toNat) (s : Reading) :
    ∃ g, tiles.foldlM TileGrid.insert (create maxCol maxRow header) = .ok g ∧
      g.Represents maxCol maxRow tiles ∧
      ∃ reports : List Event,
        (tiles.foldlM insertScript (create maxCol maxRow header)).run s =
          .ok g { s with log := s.log ++ reports.toArray } ∧
        reports.length + g.byName.size = g.tiles.size ∧
        ∀ e ∈ reports, ∃ t ∈ tiles, ∃ id, e = .nameTakenOver t.name id := by
  obtain ⟨g, hindexed, hinsert, hrun⟩ :=
    (indexed_create maxCol maxRow header).exists_foldlM hin s
  rw [List.nil_append] at hindexed
  refine ⟨g, hinsert, hindexed.represents hin, takeOvers [] tiles, hrun, ?_, ?_⟩
  · have hlength := length_takeOvers [] tiles
    have hsize : g.byName.size = (tiles.map Tile.name).eraseDups.length := by
      rw [← hindexed.byName_keys, OrderedMap.keys, List.length_map, OrderedMap.size]
    rw [hsize, ← Array.length_toList, hindexed.tiles_eq]
    simpa using hlength
  · exact fun e he => mem_takeOvers he

/-- Four tiles in two cells: the second has the kind and the cell of the first, and the last has
its name. -/
def doubledTiles : List Tile := [
  ⟨"a", "plb", 0, 0, 4, 54, 100, 200, .template⟩,
  ⟨"b", "plb", 0, 0, 4, 54, 100, 200, .template⟩,
  ⟨"c", "pib", 1, 0, 4, 54, 101, 200, .located 3⟩,
  ⟨"a", "plb", 1, 0, 0, 0, 0, 0, .placeholder⟩]

theorem exists_foldlM_represents_doubledTiles :
    (∀ t ∈ doubledTiles, t.x.toNat < (2 : UInt32).toNat ∧ t.y.toNat < (1 : UInt32).toNat) ∧
      ∃ g, doubledTiles.foldlM TileGrid.insert (create 2 1 ["bil_info"]) = .ok g ∧
        g.named "a" = .ok doubledTiles[3]? ∧ g.template 0 0 "plb" = .ok doubledTiles[1]? ∧
        g.template (-1) 0 "plb" = .ok none ∧
        ∃ reports : List Event,
          (doubledTiles.foldlM insertScript (create 2 1 ["bil_info"])).run { lines := [] } =
            .ok g { lines := [], log := reports.toArray } ∧
          reports.length = 1 := by
  have hin : ∀ t ∈ doubledTiles,
      t.x.toNat < (2 : UInt32).toNat ∧ t.y.toNat < (1 : UInt32).toNat := by decide
  obtain ⟨g, hinsert, hg, reports, hrun, hnumber, -⟩ :=
    exists_foldlM_represents 2 1 ["bil_info"] doubledTiles hin { lines := [] }
  refine ⟨hin, g, hinsert, hg.named "a", hg.template 0 0 "plb",
    hg.template_outside (-1) 0 "plb" (by decide), reports, ?_, ?_⟩
  · rw [hrun, Array.empty_append]
  · have hnames : g.byName.size = 3 := by
      rw [OrderedMap.size, ← List.length_map Prod.fst]
      exact (congrArg List.length hg.byName_keys).trans (by decide)
    have htiles : g.tiles.size = 4 := by
      rw [← Array.length_toList, hg.tiles_eq]
      rfl
    omega

end TileGrid

end ChipAtlas
