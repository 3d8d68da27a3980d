import ChipAtlas.Proofs.Bits.Catalog
import ChipAtlas.Proofs.Fuses.Address
import ChipAtlas.Proofs.Tiles.Placed
import Mathlib.Algebra.BigOperators.Group.List.Lemmas
import Mathlib.Algebra.GroupWithZero.Nat

/-!
# What a fuse map counts

A fuse map is made by one pass over the bits of the placed tiles, `FuseMap.placements`. Each bit
goes one of three ways: it is stored in a fuse, it has no fuse, or it is not found. After each bit
the map counts the bits so far, `FuseMap.Counts`: a fuse has an entry as soon as one bit is stored
in it, and the entry is their number modulo 2^32. `FuseMap.Counts.add` is the step of one bit, and
`FuseMap.Counts.foldlM` the run.

No bit is lost or counted twice, so that the counts add up to the number of bits
(`FuseMap.Counts.sum`). The sum runs over the fuses of the map, and these are the fuses that some
bit is stored in, without repetitions.

* `FuseMap.placements` — the bits of the tiles that are not placeholders, in the order of the tiles
  and of their catalogs;
* `FuseMap.counts_of_build` — a fuse map counts the bits of the placed tiles;
* `Database.fuseMap_counts` — the fuse map of every database, with and without its placeholders.
-/

namespace ChipAtlas

/-! ### The order of fuses -/

instance : Std.TransCmp fuseOrder :=
  inferInstanceAs (Std.TransCmp (compareLex (compareOn Prod.fst) (compareOn Prod.snd)))

instance : Std.LawfulEqCmp fuseOrder where
  eq_of_compare {a b} h := by
    rw [fuseOrder, compareLex_eq_eq] at h
    exact Prod.ext (Std.LawfulEqCmp.eq_of_compare h.1) (Std.LawfulEqCmp.eq_of_compare h.2)

/-! ### The three ways of a bit -/

/-- The fuse of a bit, its column corrected if asked for. -/
def Resolution.fuse? (correct : Bool) : Resolution → Option (UInt32 × UInt32)
  | .fuse row col => some (row, if correct then correctColumn col else col)
  | _ => none

/-- The report of a bit that is not found. -/
def Resolution.miss? : Resolution → Option UnresolvedRemap
  | .unresolved remap => some remap
  | _ => none

namespace FuseMap

/-! ### The bits of the placed tiles -/

/-- The bits of the tiles that are not placeholders: for each tile, in order, the bits of the
catalog that is named like its kind. -/
def placements (tiles : List Tile) (catalogs : Catalogs) : List (Tile × ConfigBit) :=
  (tiles.filter (·.flag ≠ .placeholder)).flatMap fun t =>
    (catalogs.entries.filter (·.1 = t.kind)).flatMap fun entry => entry.2.bits.map (t, ·)

theorem placedBits_eq (g : TileGrid) (catalogs : Catalogs) :
    placedBits g catalogs = placements g.tiles.toList catalogs := by
  rw [placedBits, placements]
  induction g.tiles.toList with
  | nil => rfl
  | cons t tiles ih =>
    rw [List.flatMap_cons, ih]
    by_cases hflag : t.flag = .placeholder
    · rw [if_pos hflag, List.filter_cons_of_neg (by simpa using hflag), List.nil_append]
    · rw [if_neg hflag, List.filter_cons_of_pos (by simpa using hflag), List.flatMap_cons,
        OrderedMap.filter_entries, OrderedMap.get?]
      cases catalogs.entries.find? (·.1 = t.kind) <;> simp

variable {g : TileGrid} {correct : Bool} {p : Tile × ConfigBit}
  {pairs more : List (Tile × ConfigBit)} {m m' : FuseMap} {r : Resolution}

/-! ### One bit -/

/-- The fuse that a bit of a tile is counted in. -/
def fuseOf (g : TileGrid) (correct : Bool) (p : Tile × ConfigBit) : Option (UInt32 × UInt32) :=
  (g.resolve p.2 p.1).toOption.bind (·.fuse? correct)

/-- The report of a bit of a tile that is not found. -/
def missOf (g : TileGrid) (p : Tile × ConfigBit) : Option UnresolvedRemap :=
  (g.resolve p.2 p.1).toOption.bind (·.miss?)

theorem fuseOf_eq (h : g.resolve p.2 p.1 = .ok r) : fuseOf g correct p = r.fuse? correct := by
  rw [fuseOf, h]
  rfl

theorem missOf_eq (h : g.resolve p.2 p.1 = .ok r) : missOf g p = r.miss? := by
  rw [missOf, h]
  rfl

/-- The bits without a fuse are those of the phase-locked loops. -/
theorem pllInfo_eq (h : g.resolve p.2 p.1 = .ok r) : p.2.pllInfo = decide (r = .notApplicable) := by
  rw [TileGrid.resolve] at h
  cases hpll : p.2.pllInfo with
  | true =>
    rw [hpll, if_pos rfl] at h
    obtain rfl := Except.ok.inj h
    rfl
  | false =>
    rw [hpll, if_neg Bool.false_ne_true] at h
    symm
    rw [decide_eq_false_iff_not]
    rintro rfl
    -- a relocated bit is found or not, and every other bit has the fuse of its tile
    split at h
    · obtain ⟨holder, -, h⟩ := TileGrid.bind_eq_ok.1 h
      cases holder <;> cases Except.ok.inj h
    · cases Except.ok.inj h

/-- Counts one bit of a tile. -/
def tally (g : TileGrid) (correct : Bool) (m : FuseMap) (p : Tile × ConfigBit) : Checked FuseMap :=
  do return m.add correct (← g.resolve p.2 p.1)

theorem tally_eq_ok :
    tally g correct m p = .ok m' ↔ ∃ r, g.resolve p.2 p.1 = .ok r ∧ m' = m.add correct r := by
  rw [tally, TileGrid.bind_eq_ok]
  refine ⟨?_, ?_⟩
  · rintro ⟨r, hr, h⟩
    exact ⟨r, hr, (Except.ok.inj h).symm⟩
  · rintro ⟨r, hr, rfl⟩
    exact ⟨r, hr, rfl⟩

theorem build_eq (g : TileGrid) (catalogs : Catalogs) (correct : Bool) :
    build g catalogs correct =
      (placements g.tiles.toList catalogs).foldlM (tally g correct) {} := by
  rw [build, placedBits_eq]
  rfl

/-! ### Counts -/

/-- The entry of a fuse that a number of bits is stored in. -/
def entryOf (n : Nat) : Option UInt32 := if n = 0 then none else some (.ofNat n)

theorem entryOf_succ (n : Nat) : entryOf (n + 1) = some ((entryOf n).getD 0 + 1) := by
  rw [entryOf, entryOf, if_neg n.succ_ne_zero, UInt32.ofNat_add]
  split
  · next h => subst h; rfl
  · rfl

theorem isSome_entryOf {n : Nat} : (entryOf n).isSome ↔ 0 < n := by
  rw [entryOf]
  split
  · next h => simp [h]
  · next h => simpa using Nat.pos_of_ne_zero h

theorem toNat_of_entryOf {n : Nat} {count : UInt32} (h : entryOf n = some count)
    (hlt : n < UInt32.size) : count.toNat = n := by
  rw [entryOf] at h
  split at h
  · exact absurd h nofun
  · rw [← Option.some.inj h, UInt32.toNat_ofNat_of_lt' hlt]

/-- The map counts a row of bits. -/
structure Counts (g : TileGrid) (correct : Bool) (pairs : List (Tile × ConfigBit))
    (m : FuseMap) : Prop where
  /-- A fuse that no bit is stored in has no entry, and every other one has the number of its bits,
  modulo 2^32. -/
  hits_get? : ∀ fuse, m.hits[fuse]? = entryOf (pairs.countP (fuseOf g correct · = some fuse))
  /-- The bits of the phase-locked loops are counted apart. -/
  notApplicable_eq : m.notApplicable = pairs.countP (·.2.pllInfo)
  /-- The bits that are not found are listed in their order. -/
  unresolved_eq : m.unresolved.toList = pairs.filterMap (missOf g)

theorem counts_empty (g : TileGrid) (correct : Bool) : Counts g correct [] {} where
  hits_get? _ := Std.TreeMap.getElem?_emptyc
  notApplicable_eq := rfl
  unresolved_eq := rfl

/-- A hit raises the entry of its fuse and of no other. -/
theorem Counts.hits_get?_hit (h : Counts g correct pairs m) (row col : UInt32)
    (fuse : UInt32 × UInt32) : (m.hit row col).hits[fuse]? =
      entryOf (pairs.countP (fuseOf g correct · = some fuse) +
        if some (row, col) = some fuse then 1 else 0) := by
  rw [hit, get, Std.TreeMap.getD_eq_getD_getElem?, Std.TreeMap.getElem?_insert]
  by_cases heq : (row, col) = fuse
  · rw [if_pos (Std.LawfulEqCmp.compare_eq_iff_eq.2 heq), if_pos (congrArg some heq), entryOf_succ,
      heq, h.hits_get?]
  · rw [if_neg (mt Std.LawfulEqCmp.compare_eq_iff_eq.1 heq), if_neg (mt Option.some.inj heq),
      h.hits_get?, Nat.add_zero]

/-- **One bit.** Whichever way it goes, it is counted there and nowhere else. -/
theorem Counts.add (h : Counts g correct pairs m) (hr : g.resolve p.2 p.1 = .ok r) :
    Counts g correct (pairs ++ [p]) (m.add correct r) := by
  have hfuse (fuse : UInt32 × UInt32) : (pairs ++ [p]).countP (fuseOf g correct · = some fuse) =
      pairs.countP (fuseOf g correct · = some fuse) +
        if r.fuse? correct = some fuse then 1 else 0 := by
    rw [List.countP_append, List.countP_singleton, fuseOf_eq hr]
    simp only [decide_eq_true_eq]
  have hmiss : [p].filterMap (missOf g) = r.miss?.toList := by
    rw [← missOf_eq hr]
    cases hp : missOf g p <;> simp [hp]
  refine ⟨fun fuse => ?_, ?_, ?_⟩
  · rw [hfuse]
    cases r with
    | fuse row col => exact h.hits_get?_hit row _ fuse
    | notApplicable => exact h.hits_get? fuse
    | unresolved remap => exact h.hits_get? fuse
  · rw [List.countP_append, List.countP_singleton, ← h.notApplicable_eq, pllInfo_eq hr]
    cases r <;> rfl
  · rw [List.filterMap_append, ← h.unresolved_eq, hmiss]
    cases r with
    | unresolved remap => exact Array.toList_push
    | _ => exact (List.append_nil _).symm

/-- **A row of bits.** The map counts the bits so far after each of them. -/
theorem Counts.foldlM (h : Counts g correct pairs m)
    (hrun : more.foldlM (tally g correct) m = .ok m') : Counts g correct (pairs ++ more) m' := by
  induction more generalizing pairs m with
  | nil =>
    obtain rfl := Except.ok.inj hrun
    rwa [List.append_nil]
  | cons p more ih =>
    rw [List.foldlM_cons, TileGrid.bind_eq_ok] at hrun
    obtain ⟨m₁, hfirst, hmore⟩ := hrun
    obtain ⟨r, hr, rfl⟩ := tally_eq_ok.1 hfirst
    have := ih (h.add hr) hmore
    rwa [List.append_assoc, List.singleton_append] at this

/-- **A fuse map counts the bits of the placed tiles.** -/
theorem counts_of_build {catalogs : Catalogs} (h : build g catalogs correct = .ok m) :
    Counts g correct (placements g.tiles.toList catalogs) m := by
  rw [build_eq] at h
  exact (counts_empty g correct).foldlM h

/-- A row of bits is counted if and only if each of them can be resolved. -/
theorem exists_foldlM_tally_iff : (∃ m', pairs.foldlM (tally g correct) m = .ok m') ↔
    ∀ p ∈ pairs, ∃ r, g.resolve p.2 p.1 = .ok r := by
  induction pairs generalizing m with
  | nil => exact ⟨fun _ => nofun, fun _ => ⟨m, rfl⟩⟩
  | cons p pairs ih =>
    simp only [List.foldlM_cons, TileGrid.bind_eq_ok, List.forall_mem_cons]
    refine ⟨?_, ?_⟩
    · rintro ⟨m', m₁, hfirst, hmore⟩
      obtain ⟨r, hr, -⟩ := tally_eq_ok.1 hfirst
      exact ⟨⟨r, hr⟩, ih.1 ⟨m', hmore⟩⟩
    · rintro ⟨⟨r, hr⟩, hall⟩
      obtain ⟨m', hmore⟩ := ih.2 hall
      exact ⟨m', m.add correct r, tally_eq_ok.2 ⟨r, hr, rfl⟩, hmore⟩

/-! ### The sum of the counts -/

/-- Each bit goes one of the three ways. -/
theorem length_eq (correct : Bool) (hall : ∀ p ∈ pairs, ∃ r, g.resolve p.2 p.1 = .ok r) :
    pairs.length = (pairs.filterMap (fuseOf g correct)).length + pairs.countP (·.2.pllInfo) +
      (pairs.filterMap (missOf g)).length := by
  induction pairs with
  | nil => rfl
  | cons p pairs ih =>
    obtain ⟨⟨r, hr⟩, hall⟩ := List.forall_mem_cons.1 hall
    rw [List.length_cons, ih hall, List.filterMap_cons, List.filterMap_cons, List.countP_cons,
      fuseOf_eq hr, missOf_eq hr, pllInfo_eq hr]
    cases r <;> simp [Resolution.fuse?, Resolution.miss?] <;> omega

/-- Counts that stay below the size of a word add up to what is counted. -/
theorem sum_hits {hits : Hits} {fuses : List (UInt32 × UInt32)}
    (h : ∀ fuse, hits[fuse]? = entryOf (fuses.countP (· = fuse)))
    (hlt : fuses.length < UInt32.size) : (hits.toList.map (·.2.toNat)).sum = fuses.length := by
  have hkeys : hits.keys.Perm fuses.dedup := by
    refine (List.perm_ext_iff_of_nodup hits.nodup_keys fuses.nodup_dedup).2 fun fuse => ?_
    rw [Std.TreeMap.mem_keys, Std.TreeMap.mem_iff_isSome_getElem?, h, isSome_entryOf,
      List.countP_pos_iff, List.mem_dedup]
    simp
  have hvalue : ∀ e ∈ hits.toList, e.2.toNat = fuses.countP (· = e.1) := by
    intro e he
    have hle := List.countP_le_length (p := fun fuse => decide (fuse = e.1)) (l := fuses)
    rw [Std.TreeMap.mem_toList_iff_getElem?_eq_some, h] at he
    exact toNat_of_entryOf he (Nat.lt_of_le_of_lt hle hlt)
  calc (hits.toList.map (·.2.toNat)).sum
      = (hits.toList.map fun e => fuses.countP (· = e.1)).sum := by rw [List.map_congr_left hvalue]
    _ = (hits.keys.map fun fuse => fuses.countP (· = fuse)).sum := by
        rw [← Std.TreeMap.map_fst_toList_eq_keys, List.map_map]
        rfl
    _ = (fuses.dedup.map fun fuse => fuses.countP (· = fuse)).sum := (hkeys.map _).sum_eq
    _ = fuses.length := List.sum_map_count_dedup_eq_length fuses

/-- **No bit is lost or counted twice**, as long as no count can wrap around. -/
theorem Counts.sum (h : Counts g correct pairs m)
    (hall : ∀ p ∈ pairs, ∃ r, g.resolve p.2 p.1 = .ok r) (hlt : pairs.length < UInt32.size) :
    (m.hits.toList.map (·.2.toNat)).sum + m.notApplicable + m.unresolved.size = pairs.length := by
  have hlength := length_eq correct hall
  have hget : ∀ fuse, m.hits[fuse]? =
      entryOf ((pairs.filterMap (fuseOf g correct)).countP (· = fuse)) := by
    intro fuse
    rw [h.hits_get?, List.countP_filterMap]
    congr 2
    funext p
    cases fuseOf g correct p <;> simp
  rw [sum_hits hget (by omega), h.notApplicable_eq, ← Array.length_toList, h.unresolved_eq]
  exact hlength.symm

end FuseMap

/-! ### Placeholders -/

namespace TileGrid

variable {g g' : TileGrid} {t : Tile}

/-- The numbers of tiles stay what they are when a tile is inserted. -/
theorem tile_of_insert (hinsert : g.insert t = .ok g') {id : Nat} {u : Tile}
    (h : g.tile id = .ok u) : g'.tile id = .ok u := by
  obtain ⟨cells, templates, -, -, rfl⟩ := insert_eq_ok.1 hinsert
  rw [tile] at h ⊢
  split at h
  · next found hfound =>
    have hlt := (Array.getElem?_eq_some_iff.1 hfound).1
    rw [Array.getElem?_push_lt hlt, ← Array.getElem?_eq_getElem hlt, hfound]
    exact h
  · cases h

/-- A tile that is no template hides none. -/
theorem template_of_insert (hflag : t.flag ≠ .template) (hinsert : g.insert t = .ok g') {x y : Int}
    {kind : String} {holder : Option Tile} (h : g.template x y kind = .ok holder) :
    g'.template x y kind = .ok holder := by
  have htile (id : Nat) (u : Tile) : g.tile id = .ok u → g'.tile id = .ok u :=
    tile_of_insert hinsert
  obtain ⟨cells, templates, -, htemplates, rfl⟩ := insert_eq_ok.1 hinsert
  obtain rfl : g.templates = templates := by rwa [if_neg hflag] at htemplates
  rw [template] at h ⊢
  split at h
  · next hin =>
    obtain ⟨kinds, hkinds, h⟩ := bind_eq_ok.1 h
    refine (if_pos hin).trans (bind_eq_ok.2 ⟨kinds, hkinds, ?_⟩)
    cases hget : kinds.get? kind with
    | some id =>
      -- the template that is found has kept its number
      rw [hget] at h
      cases hfound : g.tile id with
      | ok u =>
        dsimp only at h ⊢
        rw [htile id u hfound]
        rwa [hfound] at h
      | error index =>
        dsimp only at h
        rw [hfound] at h
        cases h
    | none => rwa [hget] at h
  · next hout => exact (if_neg hout).trans h

/-- A tile that is no template changes no address. -/
theorem resolve_of_insert (hflag : t.flag ≠ .template) (hinsert : g.insert t = .ok g')
    {b : ConfigBit} {owner : Tile} {r : Resolution} (h : g.resolve b owner = .ok r) :
    g'.resolve b owner = .ok r := by
  rw [resolve] at h ⊢
  split
  · next hpll => rwa [if_pos hpll] at h
  · next hpll =>
    rw [if_neg hpll] at h
    split
    · next hremap =>
      rw [if_pos hremap] at h
      obtain ⟨holder, hholder, h⟩ := bind_eq_ok.1 h
      exact bind_eq_ok.2 ⟨holder, template_of_insert hflag hinsert hholder, h⟩
    · next hremap => rwa [if_neg hremap] at h

/-- Placeholders are no templates, so the addresses are told from the other tiles. -/
theorem addressIn_filter (tiles : List Tile) (b : ConfigBit) (owner : Tile) :
    addressIn (tiles.filter (·.flag ≠ .placeholder)) b owner = addressIn tiles b owner := by
  have hlast (x y : Int) (kind : String) :
      lastTemplate (tiles.filter (·.flag ≠ .placeholder)) x y kind =
        lastTemplate tiles x y kind := by
    rw [lastTemplate, lastTemplate, List.filter_filter]
    congr 1
    refine List.filter_congr fun t _ => ?_
    by_cases htemplate : t.IsTemplateAt x y kind
    · have hflag : t.flag ≠ .placeholder := by
        rw [htemplate.2.2.2]
        decide
      simp [htemplate, hflag]
    · simp [htemplate]
  simp only [addressIn, hlast]

end TileGrid

namespace FuseMap

variable {g g' : TileGrid} {correct : Bool} {m m' : FuseMap} {catalogs : Catalogs}

/-- Where bits are resolved alike, they are counted alike, from one count to the next. -/
theorem foldlM_tally_of_resolve {pairs : List (Tile × ConfigBit)}
    (hresolve : ∀ b owner r, g.resolve b owner = .ok r → g'.resolve b owner = .ok r)
    (h : pairs.foldlM (tally g correct) m = .ok m') :
    pairs.foldlM (tally g' correct) m = .ok m' := by
  induction pairs generalizing m with
  | nil => exact h
  | cons p pairs ih =>
    rw [List.foldlM_cons, TileGrid.bind_eq_ok] at h ⊢
    obtain ⟨m₁, hfirst, hmore⟩ := h
    obtain ⟨r, hr, rfl⟩ := tally_eq_ok.1 hfirst
    exact ⟨_, tally_eq_ok.2 ⟨r, hresolve _ _ r hr, rfl⟩, ih hmore⟩

/-- A grid that has the same placed tiles and resolves their bits alike has the same fuse map. -/
theorem build_of_resolve
    (htiles : g'.tiles.toList.filter (·.flag ≠ .placeholder) =
      g.tiles.toList.filter (·.flag ≠ .placeholder))
    (hresolve : ∀ b owner r, g.resolve b owner = .ok r → g'.resolve b owner = .ok r)
    (h : build g catalogs correct = .ok m) : build g' catalogs correct = .ok m := by
  rw [build_eq] at h ⊢
  have hpairs : placements g'.tiles.toList catalogs = placements g.tiles.toList catalogs := by
    rw [placements, htiles, ← placements]
  rw [hpairs]
  exact foldlM_tally_of_resolve hresolve h

/-- **One placeholder.** It changes no fuse map. -/
theorem build_of_insert {t : Tile} (hflag : t.flag = .placeholder)
    (hinsert : g.insert t = .ok g') (h : build g catalogs correct = .ok m) :
    build g' catalogs correct = .ok m := by
  have hno : t.flag ≠ .template := hflag ▸ nofun
  refine build_of_resolve ?_ (fun _ _ _ => TileGrid.resolve_of_insert hno hinsert) h
  obtain ⟨cells, templates, -, -, rfl⟩ := TileGrid.insert_eq_ok.1 hinsert
  rw [Array.toList_push, List.filter_append]
  simp [hflag]

/-- **Placeholders anywhere.** Grids made by insertions have one fuse map if their tiles differ in
placeholders only. -/
theorem build_of_foldlM {maxCol maxRow : UInt32} {header : Record} {tiles tiles' : List Tile}
    (hinsert : tiles.foldlM TileGrid.insert (.create maxCol maxRow header) = .ok g)
    (hinsert' : tiles'.foldlM TileGrid.insert (.create maxCol maxRow header) = .ok g')
    (htiles : tiles'.filter (·.flag ≠ .placeholder) = tiles.filter (·.flag ≠ .placeholder))
    (h : build g catalogs correct = .ok m) : build g' catalogs correct = .ok m := by
  obtain ⟨hindexed, hin⟩ := (TileGrid.indexed_create maxCol maxRow header).foldlM hinsert
  obtain ⟨hindexed', hin'⟩ := (TileGrid.indexed_create maxCol maxRow header).foldlM hinsert'
  rw [List.nil_append] at hindexed hindexed'
  refine build_of_resolve ?_ (fun b owner r hr => ?_) h
  · rw [hindexed.tiles_eq, hindexed'.tiles_eq, htiles]
  · rw [hindexed.resolve_eq hin, ← TileGrid.addressIn_filter, ← htiles,
      TileGrid.addressIn_filter] at hr
    rw [hindexed'.resolve_eq hin', hr]

end FuseMap

/-- **The fuse map of a database.** It exists if every bit of a placed tile can be resolved, as in
every grid that is made by insertions. It then counts each of these bits once, whatever the names of
their tiles are. A placeholder that is inserted last changes nothing, and in a grid that is made by
insertions the placeholders may stand anywhere among the tiles. -/
theorem Database.fuseMap_counts (db : Database) (correct : Bool) :
    ((∃ m, db.fuseMap correct = .ok m) ↔
      ∀ p ∈ FuseMap.placements db.grid.tiles.toList db.catalogs,
        ∃ r, db.grid.resolve p.2 p.1 = .ok r) ∧
    (∀ (maxCol maxRow : UInt32) (header : Record) (tiles : List Tile),
      tiles.foldlM TileGrid.insert (.create maxCol maxRow header) = .ok db.grid →
      ∃ m, db.fuseMap correct = .ok m) ∧
    ∀ m, db.fuseMap correct = .ok m →
      FuseMap.Counts db.grid correct (FuseMap.placements db.grid.tiles.toList db.catalogs) m ∧
      ((FuseMap.placements db.grid.tiles.toList db.catalogs).length < UInt32.size →
        (m.hits.toList.map (·.2.toNat)).sum + m.notApplicable + m.unresolved.size =
          (FuseMap.placements db.grid.tiles.toList db.catalogs).length) ∧
      (∀ t g', t.flag = .placeholder → db.grid.insert t = .ok g' →
        { db with grid := g' }.fuseMap correct = .ok m) ∧
      ∀ (maxCol maxRow : UInt32) (header : Record) (tiles tiles' : List Tile) (g' : TileGrid),
        tiles.foldlM TileGrid.insert (.create maxCol maxRow header) = .ok db.grid →
        tiles'.foldlM TileGrid.insert (.create maxCol maxRow header) = .ok g' →
        tiles'.filter (·.flag ≠ .placeholder) = tiles.filter (·.flag ≠ .placeholder) →
        { db with grid := g' }.fuseMap correct = .ok m := by
  have hall : (∃ m, db.fuseMap correct = .ok m) ↔
      ∀ p ∈ FuseMap.placements db.grid.tiles.toList db.catalogs,
        ∃ r, db.grid.resolve p.2 p.1 = .ok r := by
    rw [Database.fuseMap, FuseMap.build_eq]
    exact FuseMap.exists_foldlM_tally_iff
  refine ⟨hall, fun maxCol maxRow header tiles hinsert => ?_, fun m hm => ?_⟩
  · exact (TileGrid.placed_of_foldlM hinsert).exists_build db.catalogs correct
  have hcounts := FuseMap.counts_of_build hm
  refine ⟨hcounts, hcounts.sum (hall.1 ⟨m, hm⟩), fun t g' hflag hinsert => ?_, ?_⟩
  · exact FuseMap.build_of_insert hflag hinsert hm
  · intro maxCol maxRow header tiles tiles' g' hinsert hinsert' htiles
    exact FuseMap.build_of_foldlM hinsert hinsert' htiles hm

end ChipAtlas
