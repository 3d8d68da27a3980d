import ChipAtlas.Proofs.Cache.Database
import ChipAtlas.Proofs.Fuses.FuseMap
import Mathlib.Data.List.Sort
import Mathlib.Data.Set.Function

/-!
# Corrected columns

Correcting a column moves it past the reserved groups in front of it. The second group is met by the
column as the first has moved it, so the columns move by 6 from 974 on and by 12 from 2920 on
(`toNat_correctColumn`). As long as no column wraps around, they keep their order, and the corrected
columns are those outside the reserved groups.

A fuse map with corrected columns therefore is the fuse map with uncorrected ones, fuse by fuse in
the same order: no two fuses fall together (`injOn_corrected`), so a moved fuse counts the same bits
(`FuseMap.Counts.hits_corrected`), and both maps list their fuses in increasing order.

* `correctColumn_lt`, `image_correctColumn` — the columns;
* `FuseMap.Counts.toList_corrected` — the fuses;
* `Database.fuseMap_corrected` — the two fuse maps of a database.
-/

namespace ChipAtlas

/-! ### Columns -/

/-- The columns that stay 32-bit words when they are corrected. -/
def correctable : Set UInt32 := {col | col.toNat ≤ 2 ^ 32 - 13}

/-- The columns of the reserved groups. -/
def reserved : Set UInt32 := {col | (974 ≤ col ∧ col ≤ 979) ∨ (2926 ≤ col ∧ col ≤ 2931)}

theorem mem_reserved {col : UInt32} : col ∈ reserved ↔
    (974 ≤ col.toNat ∧ col.toNat ≤ 979) ∨ (2926 ≤ col.toNat ∧ col.toNat ≤ 2931) := by
  simp only [reserved, Set.mem_ofPred_eq, UInt32.le_iff_toNat_le]
  rfl

/-- How far a column moves. The second group is at 2926, but the columns from 2920 on are there when
they have been moved past the first. -/
theorem toNat_correctColumn {col : UInt32} (h : col ∈ correctable) :
    (correctColumn col).toNat =
      if col.toNat < 974 then col.toNat
      else if col.toNat < 2920 then col.toNat + 6
      else col.toNat + 12 := by
  have hcol : col.toNat ≤ 2 ^ 32 - 13 := h
  have hsix (c : UInt32) : (c + 6).toNat = (c.toNat + 6) % 2 ^ 32 := UInt32.toNat_add c 6
  have hfirst : (974 : UInt32) ≤ col ↔ 974 ≤ col.toNat := UInt32.le_iff_toNat_le
  have hsecond (c : UInt32) : (2926 : UInt32) ≤ c ↔ 2926 ≤ c.toNat := UInt32.le_iff_toNat_le
  simp only [correctColumn, reservedColumns, reservedWidth, List.foldl_cons, List.foldl_nil, hfirst,
    hsecond]
  split_ifs <;> simp only [hsix] at * <;> omega

/-- **Columns keep their order.** -/
theorem correctColumn_lt {a b : UInt32} (ha : a ∈ correctable) (hb : b ∈ correctable)
    (hlt : a < b) : correctColumn a < correctColumn b := by
  rw [UInt32.lt_iff_toNat_lt] at hlt ⊢
  rw [toNat_correctColumn ha, toNat_correctColumn hb]
  split_ifs <;> omega

/-- No column is corrected to a reserved one. -/
theorem correctColumn_not_mem_reserved {col : UInt32} (h : col ∈ correctable) :
    correctColumn col ∉ reserved := by
  rw [mem_reserved, toNat_correctColumn h]
  split_ifs <;> omega

/-- **Corrected columns** are the columns outside the reserved groups, all of them. -/
theorem image_correctColumn : correctColumn '' correctable = reservedᶜ := by
  ext col
  refine ⟨?_, fun hcol => ?_⟩
  · rintro ⟨before, hbefore, rfl⟩
    exact correctColumn_not_mem_reserved hbefore
  · rw [Set.mem_compl_iff, mem_reserved] at hcol
    have hlt := col.toNat_lt
    -- the column lies in front of both groups, between them, or behind them
    obtain ⟨n, hn, hmoved⟩ : ∃ n, n ≤ 2 ^ 32 - 13 ∧
        (if n < 974 then n else if n < 2920 then n + 6 else n + 12) = col.toNat := by
      rcases Nat.lt_or_ge col.toNat 974 with hfront | hbehind
      · exact ⟨col.toNat, by omega, if_pos hfront⟩
      · rcases Nat.lt_or_ge col.toNat 2926 with hbetween | hlast
        · refine ⟨col.toNat - 6, by omega, ?_⟩
          split_ifs <;> omega
        · refine ⟨col.toNat - 12, by omega, ?_⟩
          split_ifs <;> omega
    have hword : (UInt32.ofNat n).toNat = n :=
      UInt32.toNat_ofNat_of_lt' (show n < 2 ^ 32 by omega)
    have hmem : UInt32.ofNat n ∈ correctable := by
      show (UInt32.ofNat n).toNat ≤ 2 ^ 32 - 13
      rwa [hword]
    refine ⟨UInt32.ofNat n, hmem, ?_⟩
    rw [← UInt32.toNat_inj, toNat_correctColumn hmem, hword]
    exact hmoved

/-! ### Fuses -/

/-- A fuse with its column corrected. -/
def corrected (fuse : UInt32 × UInt32) : UInt32 × UInt32 := (fuse.1, correctColumn fuse.2)

theorem fuseOrder_eq_lt {a b : UInt32 × UInt32} :
    fuseOrder a b = .lt ↔ a.1 < b.1 ∨ a.1 = b.1 ∧ a.2 < b.2 := by
  rw [fuseOrder, compareLex, Ordering.then_eq_lt, compareOn, compareOn, Std.compare_eq_lt,
    Std.compare_eq_lt, Std.LawfulEqCmp.compare_eq_iff_eq]

/-- No two fuses fall together. -/
theorem injOn_corrected : Set.InjOn corrected {fuse | fuse.2 ∈ correctable} := by
  intro a ha b hb heq
  obtain ⟨hrow, hcol⟩ := Prod.mk.inj heq
  refine Prod.ext hrow ?_
  -- one of two columns that differ is less, and so is its correction
  by_contra hne
  rcases UInt32.lt_or_lt_of_ne hne with hlt | hlt
  · exact UInt32.ne_of_lt (correctColumn_lt ha hb hlt) hcol
  · exact UInt32.ne_of_lt (correctColumn_lt hb ha hlt) hcol.symm

/-- Fuses keep their order. -/
theorem fuseOrder_corrected {a b : UInt32 × UInt32} (ha : a.2 ∈ correctable)
    (hb : b.2 ∈ correctable) (h : fuseOrder a b = .lt) :
    fuseOrder (corrected a) (corrected b) = .lt := by
  rw [fuseOrder_eq_lt] at h ⊢
  exact h.imp_right fun h => ⟨h.1, correctColumn_lt ha hb h.2⟩

theorem Resolution.fuse?_true (r : Resolution) : r.fuse? true = (r.fuse? false).map corrected := by
  cases r <;> rfl

namespace FuseMap

/-- The entries of a fuse map stand in the order of their fuses. -/
def entryLt (a b : (UInt32 × UInt32) × UInt32) : Prop := fuseOrder a.1 b.1 = .lt

instance : Std.Irrefl entryLt where
  irrefl e h := by
    have hself : fuseOrder e.1 e.1 = .eq := Std.ReflCmp.compare_self
    rw [entryLt, hself] at h
    cases h

instance : Std.Antisymm entryLt where
  antisymm a b h h' := by
    have := Std.OrientedCmp.gt_of_lt h
    rw [entryLt] at h'
    rw [h'] at this
    cases this

variable {g : TileGrid} {correct : Bool} {pairs : List (Tile × ConfigBit)} {m m' : FuseMap}
  {fuse : UInt32 × UInt32}

theorem fuseOf_true (g : TileGrid) (p : Tile × ConfigBit) :
    fuseOf g true p = (fuseOf g false p).map corrected := by
  rw [fuseOf, fuseOf]
  cases (g.resolve p.2 p.1).toOption with
  | none => rfl
  | some r => exact r.fuse?_true

theorem resolve_of_fuseOf {p : Tile × ConfigBit} (h : fuseOf g false p = some fuse) :
    g.resolve p.2 p.1 = .ok (.fuse fuse.1 fuse.2) := by
  cases hr : g.resolve p.2 p.1 with
  | error index =>
    rw [fuseOf, hr] at h
    cases h
  | ok r =>
    rw [fuseOf_eq hr] at h
    cases r with
    | fuse row col => rw [← Option.some.inj h, if_neg Bool.false_ne_true]
    | notApplicable => cases h
    | unresolved remap => cases h

/-- The fuses of a map are those that a bit is stored in. -/
theorem Counts.mem_hits_iff (h : Counts g correct pairs m) :
    fuse ∈ m.hits ↔ ∃ p ∈ pairs, fuseOf g correct p = some fuse := by
  rw [Std.TreeMap.mem_iff_isSome_getElem?, h.hits_get?, isSome_entryOf, List.countP_pos_iff]
  simp only [decide_eq_true_eq]

theorem Counts.exists_of_mem_toList (h : Counts g correct pairs m)
    {e : (UInt32 × UInt32) × UInt32} (he : e ∈ m.hits.toList) :
    ∃ p ∈ pairs, fuseOf g correct p = some e.1 := by
  refine h.mem_hits_iff.1 ?_
  rw [Std.TreeMap.mem_iff_isSome_getElem?, Std.TreeMap.mem_toList_iff_getElem?_eq_some.1 he]
  rfl

/-- A moved fuse counts the bits of the fuse that it comes from. -/
theorem Counts.hits_corrected (h : Counts g false pairs m) (h' : Counts g true pairs m')
    (hcols : ∀ p ∈ pairs, ∀ fuse, fuseOf g false p = some fuse → fuse.2 ∈ correctable)
    (hfuse : fuse.2 ∈ correctable) : m'.hits[corrected fuse]? = m.hits[fuse]? := by
  rw [h.hits_get?, h'.hits_get?]
  congr 1
  refine List.countP_congr fun p hp => ?_
  rw [decide_eq_true_eq, decide_eq_true_eq, fuseOf_true]
  refine ⟨fun heq => ?_, fun heq => by rw [heq, Option.map_some]⟩
  obtain ⟨before, hbefore, hmoved⟩ := Option.map_eq_some_iff.1 heq
  rw [hbefore, injOn_corrected (hcols p hp before hbefore) hfuse hmoved]

/-- **Fuse maps with corrected columns** have the entries of the uncorrected ones, in the same order
and with the same counts, each with its fuse moved. -/
theorem Counts.toList_corrected (h : Counts g false pairs m) (h' : Counts g true pairs m')
    (hcols : ∀ p ∈ pairs, ∀ fuse, fuseOf g false p = some fuse → fuse.2 ∈ correctable) :
    m'.hits.toList = m.hits.toList.map fun e => (corrected e.1, e.2) := by
  have hkeys : ∀ e ∈ m.hits.toList, e.1.2 ∈ correctable := by
    intro e he
    obtain ⟨p, hp, hfuse⟩ := h.exists_of_mem_toList he
    exact hcols p hp e.1 hfuse
  have hsorted : m.hits.toList.Pairwise entryLt := Std.TreeMap.ordered_keys_toList
  have hsorted' : m'.hits.toList.Pairwise entryLt := Std.TreeMap.ordered_keys_toList
  -- lists in strict order are equal if they have the same members
  refine hsorted'.eq_of_mem_iff (List.pairwise_map.2 ?_) fun e => ⟨fun he => ?_, fun he => ?_⟩
  · exact hsorted.imp_of_mem fun ha hb hlt => fuseOrder_corrected (hkeys _ ha) (hkeys _ hb) hlt
  · obtain ⟨p, hp, hfuse⟩ := h'.exists_of_mem_toList he
    rw [fuseOf_true] at hfuse
    obtain ⟨before, hbefore, hmoved⟩ := Option.map_eq_some_iff.1 hfuse
    have hget := h.hits_corrected h' hcols (hcols p hp before hbefore)
    rw [hmoved, Std.TreeMap.mem_toList_iff_getElem?_eq_some.1 he] at hget
    refine List.mem_map.2 ⟨(before, e.2), ?_, Prod.ext hmoved rfl⟩
    exact Std.TreeMap.mem_toList_iff_getElem?_eq_some.2 hget.symm
  · obtain ⟨before, hbefore, rfl⟩ := List.mem_map.1 he
    have hget := h.hits_corrected h' hcols (hkeys before hbefore)
    rw [Std.TreeMap.mem_toList_iff_getElem?_eq_some.1 hbefore] at hget
    exact Std.TreeMap.mem_toList_iff_getElem?_eq_some.2 hget

/-- A fuse map is another one with its columns corrected. -/
structure IsCorrection (m m' : FuseMap) : Prop where
  /-- The entries are the same, in the same order, each with its fuse moved. -/
  toList_eq : m'.hits.toList = m.hits.toList.map fun e => ((e.1.1, correctColumn e.1.2), e.2)
  size_eq : m'.hits.size = m.hits.size
  not_reserved : ∀ fuse ∈ m'.hits, fuse.2 ∉ reserved
  notApplicable_eq : m'.notApplicable = m.notApplicable
  unresolved_eq : m'.unresolved = m.unresolved

theorem Counts.isCorrection (h : Counts g false pairs m) (h' : Counts g true pairs m')
    (hcols : ∀ p ∈ pairs, ∀ fuse, fuseOf g false p = some fuse → fuse.2 ∈ correctable) :
    IsCorrection m m' := by
  have hlist := h.toList_corrected h' hcols
  refine ⟨hlist, ?_, fun fuse hfuse => ?_, ?_, ?_⟩
  · rw [← Std.TreeMap.length_toList, hlist, List.length_map, Std.TreeMap.length_toList]
  · obtain ⟨p, hp, hmoved⟩ := h'.mem_hits_iff.1 hfuse
    rw [fuseOf_true] at hmoved
    obtain ⟨before, hbefore, rfl⟩ := Option.map_eq_some_iff.1 hmoved
    exact correctColumn_not_mem_reserved (hcols p hp before hbefore)
  · rw [h.notApplicable_eq, h'.notApplicable_eq]
  · rw [← Array.toList_inj, h.unresolved_eq, h'.unresolved_eq]

end FuseMap

/-- **Column correction neither merges nor reorders fuses.** On the columns up to 2^32 - 13 it keeps
the order, and what it gives are the columns outside the reserved groups. So if no column of a
database is behind them, its fuse map with corrected columns is its fuse map with each fuse moved,
and one exists if the other does. -/
theorem Database.fuseMap_corrected :
    (∀ a ∈ correctable, ∀ b ∈ correctable, a < b → correctColumn a < correctColumn b) ∧
    correctColumn '' correctable = reservedᶜ ∧
    ∀ db : Database, (∀ p ∈ FuseMap.placements db.grid.tiles.toList db.catalogs, ∀ row col,
        db.grid.resolve p.2 p.1 = .ok (.fuse row col) → col ∈ correctable) →
      ((∃ m', db.fuseMap true = .ok m') ↔ ∃ m, db.fuseMap false = .ok m) ∧
      (∀ (maxCol maxRow : UInt32) (header : Record) (tiles : List Tile),
        tiles.foldlM TileGrid.insert (.create maxCol maxRow header) = .ok db.grid →
        ∃ m, db.fuseMap false = .ok m) ∧
      ∀ m m', db.fuseMap false = .ok m → db.fuseMap true = .ok m' → FuseMap.IsCorrection m m' := by
  refine ⟨fun a ha b hb => correctColumn_lt ha hb, image_correctColumn, fun db hcols => ?_⟩
  refine ⟨?_, fun maxCol maxRow header tiles hinsert => ?_, fun m m' hm hm' => ?_⟩
  · -- both exist if every bit can be resolved
    simp only [Database.fuseMap, FuseMap.build_eq]
    rw [FuseMap.exists_foldlM_tally_iff, FuseMap.exists_foldlM_tally_iff]
  · exact (TileGrid.placed_of_foldlM hinsert).exists_build db.catalogs false
  · refine (FuseMap.counts_of_build hm).isCorrection (FuseMap.counts_of_build hm')
      fun p hp fuse hfuse => ?_
    exact hcols p hp fuse.1 fuse.2 (FuseMap.resolve_of_fuseOf hfuse)

/-- The bits of two tiles whose columns are 8 apart, next to the places where columns begin to
move. -/
def Database.edges : Database :=
  { small with
    catalogs := .ofList [("plb", ⟨[], [973, 2919].map fun bit =>
      { TileGrid.neighbourBit 0 with frame := 4, bit, remap := false }⟩)] }

theorem Database.fuseMap_corrected_edges :
    (∀ p ∈ FuseMap.placements edges.grid.tiles.toList edges.catalogs, ∀ row col,
        edges.grid.resolve p.2 p.1 = .ok (.fuse row col) → col ∈ correctable) ∧
      ∃ m m', edges.fuseMap false = .ok m ∧ edges.fuseMap true = .ok m' ∧
        m.hits.toList = [((4, 973), 1), ((4, 2919), 1), ((12, 981), 1), ((12, 2927), 1)] ∧
        m'.hits.toList = [((4, 973), 1), ((4, 2925), 1), ((12, 987), 1), ((12, 2939), 1)] := by
  have hcols : ∀ p ∈ FuseMap.placements edges.grid.tiles.toList edges.catalogs, ∀ row col,
      edges.grid.resolve p.2 p.1 = .ok (.fuse row col) → col ∈ correctable := by
    have hall : ∀ p ∈ FuseMap.placements edges.grid.tiles.toList edges.catalogs,
        (FuseMap.fuseOf edges.grid false p).all (·.2.toNat ≤ 2927) := by decide +kernel
    intro p hp row col hr
    have hp := hall p hp
    rw [FuseMap.fuseOf_eq hr] at hp
    have hcol : col.toNat ≤ 2927 := of_decide_eq_true hp
    show col.toNat ≤ 2 ^ 32 - 13
    omega
  have hcounted : ∃ m, edges.fuseMap false = .ok m ∧
      m.hits.toList = [((4, 973), 1), ((4, 2919), 1), ((12, 981), 1), ((12, 2927), 1)] :=
    ⟨_, rfl, by decide +kernel⟩
  obtain ⟨m, hm, hlist⟩ := hcounted
  obtain ⟨hiff, -, hcorrection⟩ := Database.fuseMap_corrected.2.2 edges hcols
  obtain ⟨m', hm'⟩ := hiff.2 ⟨m, hm⟩
  refine ⟨hcols, m, m', hm, hm', hlist, ?_⟩
  rw [(hcorrection m m' hm hm').toList_eq, hlist]
  decide

end ChipAtlas
