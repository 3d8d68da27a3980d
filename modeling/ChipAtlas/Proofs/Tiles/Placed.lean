import ChipAtlas.Database
import ChipAtlas.Proofs.Fuses.Address

/-!
# Grids that can be looked up everywhere

A grid whose tiles all lie inside it, and whose indices are read off its tiles, has an answer to
every look-up that is made in it: the numbers that the indices give are numbers of tiles, and the
positions that are asked for have a cell. Neither an export of the grid nor the search for a fuse
goes past a table.

* `TileGrid.Placed.exists_insert` — one more tile keeps a grid so, and can be inserted;
* `TileGrid.Placed.exists_toJson` — the export, in both layouts;
* `TileGrid.Placed.exists_build` — the fuse map, for all catalogs.
-/

namespace ChipAtlas

namespace TileGrid

/-- Every tile of the grid lies inside it, and its indices are read off its tiles. -/
def Placed (g : TileGrid) (maxCol maxRow : UInt32) : Prop :=
  ∃ header tiles, g.Indexed maxCol maxRow header tiles ∧
    ∀ t ∈ tiles, t.x.toNat < maxCol.toNat ∧ t.y.toNat < maxRow.toNat

/-! ### Rows of look-ups -/

section Rows

variable {α β : Type} {as : List α}

theorem exists_mapM {f : α → Checked β} (h : ∀ a ∈ as, ∃ b, f a = .ok b) :
    ∃ bs, as.mapM f = .ok bs := by
  induction as with
  | nil => exact ⟨[], rfl⟩
  | cons a as ih =>
    obtain ⟨b, hb⟩ := h a List.mem_cons_self
    obtain ⟨bs, hbs⟩ := ih fun a' ha' => h a' (List.mem_cons_of_mem a ha')
    exact ⟨b :: bs, by rw [List.mapM_cons, hb, hbs]; rfl⟩

theorem exists_foldlM {f : β → α → Checked β} (h : ∀ b, ∀ a ∈ as, ∃ b', f b a = .ok b') (b : β) :
    ∃ b', as.foldlM f b = .ok b' := by
  induction as generalizing b with
  | nil => exact ⟨b, rfl⟩
  | cons a as ih =>
    obtain ⟨b₁, hb₁⟩ := h b a List.mem_cons_self
    obtain ⟨b', hb'⟩ := ih (fun b a' ha' => h b a' (List.mem_cons_of_mem a ha')) b₁
    exact ⟨b', by rw [List.foldlM_cons, hb₁]; exact hb'⟩

end Rows

variable {g : TileGrid} {maxCol maxRow : UInt32} {t : Tile}

theorem placed_create (maxCol maxRow : UInt32) (header : Record) :
    (create maxCol maxRow header).Placed maxCol maxRow :=
  ⟨header, [], indexed_create maxCol maxRow header, nofun⟩

/-- **A run of insertions** leads to a grid that can be looked up everywhere. -/
theorem placed_of_foldlM {header : Record} {tiles : List Tile}
    (hinsert : tiles.foldlM TileGrid.insert (create maxCol maxRow header) = .ok g) :
    g.Placed maxCol maxRow :=
  ⟨header, tiles, (indexed_create maxCol maxRow header).foldlM hinsert⟩

/-- **One insertion.** Inside the grid a tile can be inserted. -/
theorem Placed.exists_insert (h : g.Placed maxCol maxRow) (hx : t.x.toNat < maxCol.toNat)
    (hy : t.y.toNat < maxRow.toNat) : ∃ g', g.insert t = .ok g' ∧ g'.Placed maxCol maxRow := by
  obtain ⟨header, tiles, hindexed, hin⟩ := h
  obtain ⟨g', hinsert⟩ := hindexed.exists_insert hx hy
  refine ⟨g', hinsert, header, tiles ++ [t], hindexed.insert hinsert, fun u hu => ?_⟩
  rcases List.mem_append.1 hu with hu | hu
  · exact hin u hu
  · obtain rfl := List.mem_singleton.1 hu
    exact ⟨hx, hy⟩

/-- A position inside the grid is inside both of its tables. -/
theorem Placed.contains_iff (h : g.Placed maxCol maxRow) {x y : Nat} :
    g.contains x y = true ↔ x < maxCol.toNat ∧ y < maxRow.toNat := by
  obtain ⟨header, tiles, hindexed, -⟩ := h
  rw [TileGrid.contains_iff, hindexed.maxCol_eq, hindexed.maxRow_eq]

/-! ### Exports -/

/-- The tiles by name: the number behind a name is the number of a tile. -/
theorem Placed.exists_toCurrentJson (h : g.Placed maxCol maxRow) :
    ∃ json, g.toCurrentJson = .ok json := by
  obtain ⟨header, tiles, hindexed, -⟩ := h
  have hmembers : ∀ e ∈ g.byName.entries, ∃ member, (do
      return (e.1, (← g.tile e.2).toCurrentJson) : Checked (String × Json)) = .ok member := by
    intro e he
    have hlast : (numbers tiles (·.name = e.1)).getLast? = some e.2 := by
      rw [← hindexed.byName_get?]
      exact OrderedMap.mem_entries_iff.1 he
    obtain ⟨t, htile, -⟩ := hindexed.tile_of_getLast? hlast
    rw [htile]
    exact ⟨_, rfl⟩
  obtain ⟨members, hmembers⟩ := exists_mapM hmembers
  refine ⟨.object members, ?_⟩
  rw [toCurrentJson, bind_eq_ok]
  exact ⟨members, hmembers, rfl⟩

/-- The rows of cells: the cells that are asked for are the cells of the grid. -/
theorem Placed.exists_toLegacyJson (h : g.Placed maxCol maxRow) :
    ∃ json, g.toLegacyJson = .ok json := by
  obtain ⟨header, tiles, hindexed, -⟩ := h
  have hword {n : Nat} {bound : UInt32} (hn : n < bound.toNat) : UInt32.ofNat n < bound := by
    have hsize : n < UInt32.size := Nat.lt_trans hn bound.toNat_lt
    rwa [UInt32.lt_iff_toNat_lt, UInt32.toNat_ofNat_of_lt' hsize]
  have hrows : ∀ y ∈ List.range g.maxRow.toNat, ∃ row, (do
      let cells ← (List.range g.maxCol.toNat).mapM fun x => g.cellJson (.ofNat x) (.ofNat y)
      return .list cells : Checked Json) = .ok row := by
    intro y hy
    rw [hindexed.maxRow_eq, List.mem_range] at hy
    have hcells : ∀ x ∈ List.range g.maxCol.toNat, ∃ cell,
        g.cellJson (.ofNat x) (.ofNat y) = .ok cell := by
      intro x hx
      rw [hindexed.maxCol_eq, List.mem_range] at hx
      rw [cellJson, hindexed.cell (hword hx) (hword hy)]
      exact ⟨_, rfl⟩
    obtain ⟨cells, hcells⟩ := exists_mapM hcells
    rw [hcells]
    exact ⟨_, rfl⟩
  obtain ⟨rows, hrows⟩ := exists_mapM hrows
  refine ⟨.list rows, ?_⟩
  rw [toLegacyJson, bind_eq_ok]
  exact ⟨rows, hrows, rfl⟩

/-- **The export**, in both layouts. -/
theorem Placed.exists_toJson (h : g.Placed maxCol maxRow) (layout : Variant) :
    ∃ json, g.toJson layout = .ok json := by
  cases layout with
  | current => exact h.exists_toCurrentJson
  | legacy => exact h.exists_toLegacyJson

/-! ### Fuses -/

/-- The address of a bit is told from the tiles of the grid. -/
theorem Placed.exists_resolve (h : g.Placed maxCol maxRow) (b : ConfigBit) (owner : Tile) :
    ∃ resolution, g.resolve b owner = .ok resolution := by
  obtain ⟨header, tiles, hindexed, hin⟩ := h
  exact ⟨_, hindexed.resolve_eq hin b owner⟩

/-- **The fuse map**, for all catalogs, with its columns corrected or not. -/
theorem Placed.exists_build (h : g.Placed maxCol maxRow) (catalogs : Catalogs) (correct : Bool) :
    ∃ fuses, FuseMap.build g catalogs correct = .ok fuses := by
  refine exists_foldlM (fun fuses placed _ => ?_) ({} : FuseMap)
  obtain ⟨t, b⟩ := placed
  obtain ⟨resolution, hresolution⟩ := h.exists_resolve b t
  dsimp only
  rw [hresolution]
  exact ⟨_, rfl⟩

end TileGrid

end ChipAtlas
