import ChipAtlas.Proofs.Fuses.FuseMap
import ChipAtlas.Proofs.Tiles.Export

/-!
# The order in which cells are filled

A file may list the cells of a grid in any order. The tiles of two such files are numbered
differently, and the indices of the two grids, which keep numbers, have hardly an entry in common.
What is looked up is told from the tiles, though, and from the tiles of one cell: its list, its
templates, and with them every address. There only the order inside the cell counts, and it is the
same in both files (`TileGrid.SameCells`).

Two things are told from tiles of several cells. A fuse map counts over all of them, in whatever
order; only the list of the bits that are not found keeps the order of the tiles. The name of a tile
stands for the last tile that has it, so names are looked up alike if none of them stands twice.

* `TileGrid.Alike` — the look-ups that two grids agree on, and `FuseMap.Alike` — what two fuse maps
  agree on;
* `TileGrid.Indexed.exists_members` — the tiles by name, told from the inserted tiles;
* `TileGrid.exists_foldlM_alike` — grids that are filled in any two orders of the cells.
-/

namespace ChipAtlas

namespace TileGrid

/-! ### Rows of tiles -/

/-- Two rows have the same tiles in each cell, in the same order. -/
def SameCells (tiles tiles' : List Tile) : Prop :=
  ∀ x y, tiles.filter (·.At x y) = tiles'.filter (·.At x y)

namespace SameCells

variable {tiles tiles' : List Tile}

/-- Each tile is counted in its own cell. -/
theorem perm (h : SameCells tiles tiles') : tiles.Perm tiles' := by
  refine List.perm_iff_count.2 fun t => ?_
  have hcount (tiles : List Tile) :
      (tiles.filter (·.At t.x.toNat t.y.toNat)).count t = tiles.count t :=
    List.count_filter (p := fun u : Tile => u.At t.x.toNat t.y.toNat) (decide_eq_true ⟨rfl, rfl⟩)
  rw [← hcount tiles, ← hcount tiles', h]

/-- The templates at a position are among the tiles of one cell. -/
theorem lastTemplate_eq (h : SameCells tiles tiles') (x y : Int) (kind : String) :
    lastTemplate tiles x y kind = lastTemplate tiles' x y kind := by
  have hcell (tiles : List Tile) : tiles.filter (·.IsTemplateAt x y kind) =
      (tiles.filter (·.At x.toNat y.toNat)).filter (·.IsTemplateAt x y kind) := by
    rw [List.filter_filter]
    refine List.filter_congr fun t _ => ?_
    by_cases htemplate : t.IsTemplateAt x y kind
    · have hat : t.At x.toNat y.toNat := by
        obtain ⟨rfl, rfl, -⟩ := htemplate
        exact ⟨rfl, rfl⟩
      simp [htemplate, hat]
    · simp [htemplate]
  rw [lastTemplate, lastTemplate, hcell tiles, hcell tiles', h]

theorem addressIn_eq (h : SameCells tiles tiles') (b : ConfigBit) (owner : Tile) :
    addressIn tiles b owner = addressIn tiles' b owner := by
  simp only [addressIn, h.lastTemplate_eq]

/-- If no name stands twice, at most one tile has a name. -/
theorem filter_name_eq (h : SameCells tiles tiles') (hnames : (tiles.map Tile.name).Nodup)
    (name : String) : tiles.filter (·.name = name) = tiles'.filter (·.name = name) := by
  have hperm := h.perm.filter (·.name = name)
  have hdistinct : (tiles.filter (·.name = name)).Pairwise fun t u => t.name ≠ u.name :=
    (List.pairwise_map.1 hnames).sublist List.filter_sublist
  have hname : ∀ t ∈ tiles.filter (·.name = name), t.name = name := by
    intro t ht
    exact of_decide_eq_true (List.mem_filter.1 ht).2
  generalize tiles.filter (·.name = name) = named at hperm hdistinct hname ⊢
  match named with
  | [] => exact hperm.nil_eq
  | [t] => exact List.singleton_perm.1 hperm
  | t :: u :: more =>
    -- two tiles of one name would have different names
    have htu := (List.pairwise_cons.1 hdistinct).1 u List.mem_cons_self
    exact absurd ((hname t (by simp)).trans (hname u (by simp)).symm) htu

end SameCells

/-! ### Look-ups -/

variable {g g' : TileGrid} {maxCol maxRow : UInt32} {header header' : Record}
  {tiles tiles' : List Tile}

/-- Two grids of a size look alike: what is looked up in one is found, and found in the other. -/
structure Alike (maxCol maxRow : UInt32) (g g' : TileGrid) : Prop where
  /-- Each cell has the same tiles, in the same order. -/
  cell : ∀ x < maxCol, ∀ y < maxRow, ∃ cell, g.cell x y = .ok cell ∧ g'.cell x y = .ok cell
  /-- What is no cell of the one grid is no cell of the other. -/
  cell_eq : ∀ x y, g.cell x y = g'.cell x y
  /-- Each position has the same templates, inside the grid and outside. -/
  template : ∀ x y kind, ∃ holder,
    g.template x y kind = .ok holder ∧ g'.template x y kind = .ok holder
  /-- Every bit of every tile is resolved to the same. -/
  resolve : ∀ b owner, ∃ r, g.resolve b owner = .ok r ∧ g'.resolve b owner = .ok r
  /-- The export in rows of cells is the same. -/
  legacy : ∃ json, g.toJson .legacy = .ok json ∧ g'.toJson .legacy = .ok json

/-- A position outside the grid has no cell. -/
theorem Holds.cell_outside (h : g.Holds maxCol maxRow header tiles) {x y : UInt32}
    (houtside : ¬ (x < maxCol ∧ y < maxRow)) :
    g.cell x y = .error (.cell x.toNat y.toNat) := by
  have hnone : g.cells.get? y.toNat x.toNat = none := by
    rw [← Option.not_isSome_iff_eq_none, Table.isSome_get?_iff, h.cells_size.1, h.cells_size.2]
    exact fun hin => houtside ⟨hin.2, hin.1⟩
  rw [TileGrid.cell, entryAt, hnone]
  rfl

/-- The rows of cells are told from the cells. -/
theorem toLegacyJson_congr (hcol : g.maxCol = g'.maxCol) (hrow : g.maxRow = g'.maxRow)
    (hcell : ∀ x y, g.cell x y = g'.cell x y) : g.toLegacyJson = g'.toLegacyJson := by
  simp only [toLegacyJson, cellJson, hcol, hrow, hcell]

theorem SameCells.alike (hcells : SameCells tiles tiles')
    (h : g.Indexed maxCol maxRow header tiles) (h' : g'.Indexed maxCol maxRow header' tiles')
    (hin : ∀ t ∈ tiles, t.x.toNat < maxCol.toNat ∧ t.y.toNat < maxRow.toNat)
    (hin' : ∀ t ∈ tiles', t.x.toNat < maxCol.toNat ∧ t.y.toNat < maxRow.toNat) :
    Alike maxCol maxRow g g' := by
  have hcell : ∀ x y, g.cell x y = g'.cell x y := by
    intro x y
    by_cases hinside : x < maxCol ∧ y < maxRow
    · rw [h.cell hinside.1 hinside.2, h'.cell hinside.1 hinside.2, hcells]
    · rw [h.cell_outside hinside, h'.cell_outside hinside]
  refine ⟨fun x hx y hy => ?_, hcell, fun x y kind => ?_, fun b owner => ?_, ?_⟩
  · exact ⟨_, h.cell hx hy, (hcell x y).symm.trans (h.cell hx hy)⟩
  · refine ⟨_, h.template_eq hin x y kind, ?_⟩
    rw [h'.template_eq hin', hcells.lastTemplate_eq]
  · refine ⟨_, h.resolve_eq hin b owner, ?_⟩
    rw [h'.resolve_eq hin', hcells.addressIn_eq]
  · have hplaced : g.Placed maxCol maxRow := ⟨header, tiles, h, hin⟩
    obtain ⟨json, hjson⟩ := hplaced.exists_toLegacyJson
    have hlegacy : g.toLegacyJson = g'.toLegacyJson :=
      toLegacyJson_congr (h.maxCol_eq.trans h'.maxCol_eq.symm)
        (h.maxRow_eq.trans h'.maxRow_eq.symm) hcell
    exact ⟨json, hjson, hlegacy.symm.trans hjson⟩

theorem Alike.resolve_eq (h : Alike maxCol maxRow g g') (b : ConfigBit) (owner : Tile) :
    g.resolve b owner = g'.resolve b owner := by
  obtain ⟨r, hr, hr'⟩ := h.resolve b owner
  rw [hr, hr']

/-! ### Tiles by name -/

/-- **The tiles by name** are exported each under its name, and what stands under a name is the
last tile that has it. -/
theorem Indexed.exists_members (h : g.Indexed maxCol maxRow header tiles)
    (hin : ∀ t ∈ tiles, t.x.toNat < maxCol.toNat ∧ t.y.toNat < maxRow.toNat) :
    ∃ members, g.toJson .current = .ok (.object members) ∧ ∀ name,
      members.lookup name =
        (tiles.filter (·.name = name)).getLast?.map Tile.toCurrentJson := by
  obtain ⟨members, hjson, hnames, hmembers⟩ := h.exists_named_members hin
  refine ⟨members, hjson, fun name => ?_⟩
  cases hlookup : members.lookup name with
  | some member =>
    obtain ⟨before, behind, rfl, -⟩ := List.lookup_eq_some_iff.1 hlookup
    obtain ⟨t, ht, rfl⟩ := hmembers name member (by simp)
    rw [ht, Option.map_some]
  | none =>
    -- no member has the name, and so no tile
    have hname : name ∉ tiles.map Tile.name := by
      rw [← List.mem_eraseDups, ← hnames]
      intro hmem
      obtain ⟨member, hmember, rfl⟩ := List.mem_map.1 hmem
      exact absurd (List.lookup_eq_none_iff.1 hlookup member hmember) (by simp)
    have hnone : tiles.filter (·.name = name) = [] :=
      List.filter_eq_nil_iff.2 fun t ht heq =>
        hname (of_decide_eq_true heq ▸ List.mem_map_of_mem ht)
    rw [hnone]
    rfl

end TileGrid

/-! ### Fuse maps -/

/-- Two fuse maps count alike: they have the same counts in the same fuses, and list the same bits
that are not found, each as often as the other. -/
structure FuseMap.Alike (m m' : FuseMap) : Prop where
  hits : m.hits.toList = m'.hits.toList
  notApplicable : m.notApplicable = m'.notApplicable
  unresolved : m.unresolved.toList.Perm m'.unresolved.toList

/-- Tiles in another order have the same bits, in another order. -/
theorem FuseMap.placements_perm {tiles tiles' : List Tile} (h : tiles.Perm tiles')
    (catalogs : Catalogs) : (placements tiles catalogs).Perm (placements tiles' catalogs) :=
  (h.filter _).flatMap_right _

/-- Grids that resolve every bit alike count the bits of the same tiles alike. -/
theorem FuseMap.Counts.alike {g g' : TileGrid} {correct : Bool}
    {pairs pairs' : List (Tile × ConfigBit)} {m m' : FuseMap} (h : Counts g correct pairs m)
    (h' : Counts g' correct pairs' m') (hpairs : pairs.Perm pairs')
    (hresolve : ∀ b owner, g.resolve b owner = g'.resolve b owner) : Alike m m' := by
  have hfuse : fuseOf g correct = fuseOf g' correct := by
    funext p
    rw [fuseOf, fuseOf, hresolve]
  have hmiss : missOf g = missOf g' := by
    funext p
    rw [missOf, missOf, hresolve]
  refine ⟨?_, ?_, ?_⟩
  · -- two maps in one order with the same look-ups have the same entries
    refine (Std.TreeMap.Equiv.of_forall_constGet?_eq fun fuse => ?_).toList_eq
    rw [h.hits_get?, h'.hits_get?, hfuse, hpairs.countP_eq]
  · rw [h.notApplicable_eq, h'.notApplicable_eq, hpairs.countP_eq]
  · rw [h.unresolved_eq, h'.unresolved_eq, hmiss]
    exact hpairs.filterMap _

/-! ### Any order of the cells -/

namespace TileGrid

/-- **Cells in any order.** Tiles that have the same order inside each cell are inserted into grids
that look alike, however the cells follow each other or are mixed. All catalogs give them fuse maps
that count alike, and if no name stands twice the tiles are found alike under their names. -/
theorem exists_foldlM_alike (maxCol maxRow : UInt32) (header header' : Record)
    (tiles tiles' : List Tile)
    (hin : ∀ t ∈ tiles, t.x.toNat < maxCol.toNat ∧ t.y.toNat < maxRow.toNat)
    (hcells : SameCells tiles tiles') :
    ∃ g g', tiles.foldlM TileGrid.insert (create maxCol maxRow header) = .ok g ∧
      tiles'.foldlM TileGrid.insert (create maxCol maxRow header') = .ok g' ∧
      Alike maxCol maxRow g g' ∧
      (∀ (catalogs : Catalogs) (correct : Bool), ∃ m m',
        FuseMap.build g catalogs correct = .ok m ∧ FuseMap.build g' catalogs correct = .ok m' ∧
          FuseMap.Alike m m') ∧
      ((tiles.map Tile.name).Nodup →
        (∀ name, ∃ found, g.named name = .ok found ∧ g'.named name = .ok found) ∧
        ∃ members members', g.toJson .current = .ok (.object members) ∧
          g'.toJson .current = .ok (.object members') ∧
          ∀ name, members.lookup name = members'.lookup name) := by
  have hin' : ∀ t ∈ tiles', t.x.toNat < maxCol.toNat ∧ t.y.toNat < maxRow.toNat :=
    fun t ht => hin t (hcells.perm.mem_iff.2 ht)
  obtain ⟨g, hinsert, hindexed⟩ := exists_foldlM_indexed maxCol maxRow header hin
  obtain ⟨g', hinsert', hindexed'⟩ := exists_foldlM_indexed maxCol maxRow header' hin'
  have hplaced : g.Placed maxCol maxRow := ⟨header, tiles, hindexed, hin⟩
  have hplaced' : g'.Placed maxCol maxRow := ⟨header', tiles', hindexed', hin'⟩
  have halike := hcells.alike hindexed hindexed' hin hin'
  refine ⟨g, g', hinsert, hinsert', halike, fun catalogs correct => ?_, fun hnames => ?_⟩
  · obtain ⟨m, hm⟩ := hplaced.exists_build catalogs correct
    obtain ⟨m', hm'⟩ := hplaced'.exists_build catalogs correct
    refine ⟨m, m', hm, hm', (FuseMap.counts_of_build hm).alike (FuseMap.counts_of_build hm') ?_
      halike.resolve_eq⟩
    rw [hindexed.tiles_eq, hindexed'.tiles_eq]
    exact FuseMap.placements_perm hcells.perm catalogs
  · obtain ⟨members, hjson, hlookup⟩ := hindexed.exists_members hin
    obtain ⟨members', hjson', hlookup'⟩ := hindexed'.exists_members hin'
    refine ⟨fun name => ?_, members, members', hjson, hjson', fun name => ?_⟩
    · refine ⟨_, hindexed.named name, ?_⟩
      rw [hindexed'.named, hcells.filter_name_eq hnames]
    · rw [hlookup, hlookup', hcells.filter_name_eq hnames]

/-- The tile of the second column between those of the first. -/
def mixedTiles : List Tile := [
  ⟨"a", "plb", 0, 0, 4, 54, 100, 200, .template⟩,
  neighbour,
  ⟨"b", "plb", 0, 0, 4, 54, 300, 400, .template⟩,
  ⟨"c", "plb", 0, 0, 4, 54, 500, 600, .located 3⟩]

theorem exists_foldlM_alike_mixed :
    (∀ t ∈ neighbourTiles, t.x.toNat < (2 : UInt32).toNat ∧ t.y.toNat < (1 : UInt32).toNat) ∧
      SameCells neighbourTiles mixedTiles ∧ (neighbourTiles.map Tile.name).Nodup ∧
      ∃ g g', neighbourTiles.foldlM TileGrid.insert (create 2 1 ["bil_info"]) = .ok g ∧
        mixedTiles.foldlM TileGrid.insert (create 2 1 ["bil_info"]) = .ok g' ∧
        Alike 2 1 g g' ∧ ∃ found, g.named "d" = .ok found ∧ g'.named "d" = .ok found := by
  have hin : ∀ t ∈ neighbourTiles,
      t.x.toNat < (2 : UInt32).toNat ∧ t.y.toNat < (1 : UInt32).toNat := by decide
  have hcells : SameCells neighbourTiles mixedTiles := by
    intro x y
    by_cases hneighbour : neighbour.At x y
    · obtain ⟨rfl, rfl⟩ := hneighbour
      decide
    · simp [neighbourTiles, mixedTiles, List.filter_cons, hneighbour]
  have hnames : (neighbourTiles.map Tile.name).Nodup := by decide
  obtain ⟨g, g', hinsert, hinsert', halike, -, hnamed⟩ :=
    exists_foldlM_alike 2 1 ["bil_info"] ["bil_info"] neighbourTiles mixedTiles hin hcells
  exact ⟨hin, hcells, hnames, g, g', hinsert, hinsert', halike, (hnamed hnames).1 "d"⟩

end TileGrid

end ChipAtlas
