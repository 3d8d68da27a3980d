import Mathlib.Algebra.GroupWithZero.Nat
import Mathlib.Data.List.Perm.Subperm
import Mathlib.Data.List.ProdSigma
import Mathlib.Data.List.Nodup
import ChipAtlas.Format.TileTable
import ChipAtlas.Proofs.Script.Walk
import ChipAtlas.Proofs.Tiles.Grid

/-!
# The form of the table of tiles
-/

namespace ChipAtlas

open Script Stateful

/-! ### Tiles -/

namespace Tile

/-- The line of a tile, and the blank line that closes it. -/
def calls (line : Record) : List Call := [.line (.only [0, 1]) line, blankCall]

/-- The tile that a line of the cell at a position describes. -/
def ofLine (x y : UInt32) (fields : Record) : Tile where
  name := fields[0]?.getD ""
  kind := fields[1]?.getD ""
  x
  y
  width := (numberAt Text.uint32? fields 4).getD 0
  height := (numberAt Text.uint32? fields 5).getD 0
  frameBase := (numberAt Text.uint32? fields 6).getD 0
  bitBase := (numberAt Text.uint32? fields 7).getD 0
  flag := .ofRaw ((numberAt Text.int32? fields 8).getD 0)

/-- A tile without extent and address. -/
def IsBare (t : Tile) : Prop := t.width = 0 ∧ t.height = 0 ∧ t.frameBase = 0 ∧ t.bitBase = 0

instance (t : Tile) : Decidable t.IsBare := inferInstanceAs (Decidable (_ ∧ _))

/-- The line has nine fields and repeats the position of its cell; the other numbers are numbers,
and if the flag is zero, there is no extent and no address. -/
@[mk_iff]
structure LineWellFormed (x y : UInt32) (line : Record) : Prop where
  length : line.length = lineFields
  x_eq : numberAt Text.uint32? line 2 = some x
  y_eq : numberAt Text.uint32? line 3 = some y
  width : (numberAt Text.uint32? line 4).isSome
  height : (numberAt Text.uint32? line 5).isSome
  frameBase : (numberAt Text.uint32? line 6).isSome
  bitBase : (numberAt Text.uint32? line 7).isSome
  flag : (numberAt Text.int32? line 8).isSome
  placeholder : numberAt Text.int32? line 8 = some 0 → (ofLine x y line).IsBare

instance (x y : UInt32) (line : Record) : Decidable (LineWellFormed x y line) :=
  decidable_of_iff' _ (lineWellFormed_iff ..)

theorem ofLine_eq {x y : UInt32} {fields : Record} {name kind : String}
    {width height frameBase bitBase : UInt32} {flag : Int32} (hname : fields[0]? = some name)
    (hkind : fields[1]? = some kind) (hwidth : numberAt Text.uint32? fields 4 = some width)
    (hheight : numberAt Text.uint32? fields 5 = some height)
    (hframe : numberAt Text.uint32? fields 6 = some frameBase)
    (hbit : numberAt Text.uint32? fields 7 = some bitBase)
    (hflag : numberAt Text.int32? fields 8 = some flag) :
    ofLine x y fields =
      { name, kind, x, y, width, height, frameBase, bitBase, flag := .ofRaw flag } := by
  simp only [ofLine, hname, hkind, hwidth, hheight, hframe, hbit, hflag, Option.getD_some]

/-- A line that is in order describes a placeholder exactly if its flag is zero. -/
theorem LineWellFormed.flag_eq_placeholder_iff {x y : UInt32} {line : Record}
    (h : LineWellFormed x y line) :
    (ofLine x y line).flag = .placeholder ↔ numberAt Text.int32? line 8 = some 0 := by
  obtain ⟨flag, hflag⟩ := Option.isSome_iff_exists.1 h.flag
  rw [ofLine, hflag, Option.getD_some, TileFlag.ofRaw_eq_placeholder_iff, Option.some.injEq]

theorem not_isBare_iff {t : Tile} :
    ¬t.IsBare ↔ t.width ≠ 0 ∨ t.height ≠ 0 ∨ t.frameBase ≠ 0 ∨ t.bitBase ≠ 0 := by
  simp only [IsBare, Classical.not_and_iff_not_or_not, ne_eq]

theorem script_accepts (x y : UInt32) :
    (script x y).Accepts calls fun line t => ofLine x y line = t ∧ LineWellFormed x y line := by
  intro row rest t
  simp only [script, walk_bind_eq_ok, walk_fields, walk_expectLength, walk_number]
  refine ⟨?_, ?_⟩
  · rintro ⟨line, _, rfl, _, _, ⟨hlength, rfl⟩, tx, _, ⟨hx, rfl⟩, ty, _, ⟨hy, rfl⟩, h⟩
    split at h
    · obtain ⟨_, _, h, -⟩ := walk_bind_eq_ok.1 h
      exact absurd h walk_refuse
    · next hecho =>
      -- the line repeats the position of its cell, so the tile need not keep it
      obtain ⟨rfl, rfl⟩ : tx = x ∧ ty = y := by
        simpa only [ne_eq, not_or, Classical.not_not] using hecho
      simp only [walk_bind_eq_ok, walk_number] at h
      obtain ⟨width, _, ⟨hwidth, rfl⟩, height, _, ⟨hheight, rfl⟩, frameBase, _, ⟨hframe, rfl⟩,
        bitBase, _, ⟨hbit, rfl⟩, flag, _, ⟨hflag, rfl⟩, h⟩ := h
      split at h
      · obtain ⟨_, _, h, -⟩ := walk_bind_eq_ok.1 h
        exact absurd h walk_refuse
      · next hbare =>
        simp only [walk_bind_eq_ok, walk_blankLine, walk_fieldAt, walk_pure] at h
        obtain ⟨_, _, rfl, name, _, ⟨hname, rfl⟩, kind, _, ⟨hkind, rfl⟩, rfl, rfl⟩ := h
        have htile := ofLine_eq (x := tx) (y := ty) hname hkind hwidth hheight hframe hbit hflag
        refine ⟨line, ⟨htile, hlength, hx, hy, ?_, ?_, ?_, ?_, ?_, fun hzero => ?_⟩, rfl⟩
        · rw [hwidth, Option.isSome_some]
        · rw [hheight, Option.isSome_some]
        · rw [hframe, Option.isSome_some]
        · rw [hbit, Option.isSome_some]
        · rw [hflag, Option.isSome_some]
        · obtain rfl := Option.some.inj (hflag.symm.trans hzero)
          rw [htile]
          -- the check on placeholders has been passed
          exact Classical.byContradiction fun hne =>
            hbare ⟨TileFlag.ofRaw_eq_placeholder_iff.2 rfl, not_isBare_iff.1 hne⟩
  · rintro ⟨line, ⟨rfl, h⟩, rfl⟩
    obtain ⟨width, hwidth⟩ := Option.isSome_iff_exists.1 h.width
    obtain ⟨height, hheight⟩ := Option.isSome_iff_exists.1 h.height
    obtain ⟨frameBase, hframe⟩ := Option.isSome_iff_exists.1 h.frameBase
    obtain ⟨bitBase, hbit⟩ := Option.isSome_iff_exists.1 h.bitBase
    obtain ⟨flag, hflag⟩ := Option.isSome_iff_exists.1 h.flag
    -- the name and the kind are there, since there are nine fields
    have hzero : 0 < line.length := by rw [h.length]; decide
    have hone : 1 < line.length := by rw [h.length]; decide
    have hname := List.getElem?_eq_getElem hzero
    have hkind := List.getElem?_eq_getElem hone
    have htile := ofLine_eq (x := x) (y := y) hname hkind hwidth hheight hframe hbit hflag
    have hbare := h.placeholder
    rw [htile] at hbare ⊢
    refine ⟨line, _, rfl, (), _, ⟨h.length, rfl⟩, x, _, ⟨h.x_eq, rfl⟩, y, _, ⟨h.y_eq, rfl⟩, ?_⟩
    rw [if_neg (by simp)]
    simp only [walk_bind_eq_ok, walk_number]
    refine ⟨width, _, ⟨hwidth, rfl⟩, height, _, ⟨hheight, rfl⟩, frameBase, _, ⟨hframe, rfl⟩,
      bitBase, _, ⟨hbit, rfl⟩, flag, _, ⟨hflag, rfl⟩, ?_⟩
    have hzero : TileFlag.ofRaw flag = .placeholder → numberAt Text.int32? line 8 = some 0 :=
      fun heq => hflag.trans (congrArg some (TileFlag.ofRaw_eq_placeholder_iff.1 heq))
    rw [if_neg fun hrefused => not_isBare_iff.2 hrefused.2 (hbare (hzero hrefused.1))]
    simp only [walk_bind_eq_ok, walk_blankLine, walk_fieldAt, walk_pure]
    exact ⟨(), rest, rfl, _, rest, ⟨hname, rfl⟩, _, rest, ⟨hkind, rfl⟩, rfl, rfl⟩

end Tile

/-! ### Cells -/

/-- The text of a cell: its line, and the lines of its tiles. -/
structure CellText where
  line : Record
  tileLines : List Record

namespace CellText

/-- The column that the line gives. -/
def x (c : CellText) : UInt32 := (numberAt Text.uint32? c.line 0).getD 0

/-- The row that the line gives. -/
def y (c : CellText) : UInt32 := (numberAt Text.uint32? c.line 1).getD 0

def position (c : CellText) : Nat × Nat := (c.x.toNat, c.y.toNat)

def tiles (c : CellText) : List Tile := c.tileLines.map (Tile.ofLine c.x c.y)

def calls (c : CellText) : List Call := .line (.only []) c.line :: c.tileLines.flatMap Tile.calls

/-- The line gives a position and the number of tiles, and the lines of the tiles are in order. -/
@[mk_iff]
structure WellFormed (c : CellText) : Prop where
  x_eq : numberAt Text.uint32? c.line 0 = some c.x
  y_eq : numberAt Text.uint32? c.line 1 = some c.y
  number : numberAt Text.count? c.line 2 = some c.tileLines.length
  tileLines : ∀ line ∈ c.tileLines, Tile.LineWellFormed c.x c.y line

instance (c : CellText) : Decidable c.WellFormed := decidable_of_iff' _ (wellFormed_iff ..)

end CellText

namespace TileGrid

theorem walk_insertScript {g g' : TileGrid} {t : Tile} {row rest : List Call} :
    (g.insertScript t).walk row = .ok g' rest ↔ g.insert t = .ok g' ∧ row = rest := by
  simp only [insertScript, walk_bind_eq_ok, walk_checked]
  refine ⟨?_, ?_⟩
  · rintro ⟨grown, _, ⟨hinsert, rfl⟩, h⟩
    -- whether the insertion is reported or not, the grid is the same
    split at h
    · obtain ⟨rfl, rfl⟩ := walk_done.1 h
      exact ⟨hinsert, rfl⟩
    · obtain ⟨rfl, rfl⟩ := walk_pure.1 h
      exact ⟨hinsert, rfl⟩
  · rintro ⟨hinsert, rfl⟩
    refine ⟨g', row, ⟨hinsert, rfl⟩, ?_⟩
    split
    · exact walk_done.2 ⟨rfl, rfl⟩
    · exact walk_pure.2 ⟨rfl, rfl⟩

theorem walk_tileLines {x y : UInt32} {n : Nat} {g : TileGrid} :
    (foldTimes n (fun _ g => do g.insertScript (← Tile.script x y)) g).Accepts
      (·.flatMap Tile.calls) fun (lines : List Record) g' =>
        (lines.map (Tile.ofLine x y)).foldlM insert g = .ok g' ∧ lines.length = n ∧
          ∀ line ∈ lines, Tile.LineWellFormed x y line := by
  refine Accepts.foldTimesM fun _ g row rest g' => ?_
  simp only [walk_bind_eq_ok, Tile.script_accepts x y _ _ _, walk_insertScript]
  refine ⟨?_, ?_⟩
  · rintro ⟨_, mid, ⟨line, ⟨rfl, hline⟩, rfl⟩, hinsert, rfl⟩
    exact ⟨line, ⟨hinsert, hline⟩, rfl⟩
  · rintro ⟨line, ⟨hinsert, hline⟩, rfl⟩
    exact ⟨_, rest, ⟨line, ⟨rfl, hline⟩, rfl⟩, hinsert, rfl⟩

/-- What listing a cell makes of a listing. -/
structure Listing.Step (s : Listing) (c : CellText) (s' : Listing) : Prop where
  wellFormed : c.WellFormed
  inside : s.grid.contains c.x.toNat c.y.toNat = true
  unseen : entryAt s.seen c.x.toNat c.y.toNat = .ok false
  seen : modifyAt s.seen c.x.toNat c.y.toNat (fun _ => true) = .ok s'.seen
  grid : c.tiles.foldlM insert s.grid = .ok s'.grid
  total : s'.total = s.total + c.tileLines.length

theorem cellScript_accepts (s : Listing) : (cellScript s).Accepts CellText.calls s.Step := by
  intro row rest s'
  simp only [cellScript, walk_bind_eq_ok, walk_fields, walk_number, walk_count]
  refine ⟨?_, ?_⟩
  · rintro ⟨line, _, rfl, x, _, ⟨hx, rfl⟩, y, _, ⟨hy, rfl⟩, n, _, ⟨hn, rfl⟩, h⟩
    split at h
    · obtain ⟨_, _, h, -⟩ := walk_bind_eq_ok.1 h
      exact absurd h walk_refuse
    · next hinside =>
      simp only [walk_bind_eq_ok, walk_checked] at h
      obtain ⟨listed, _, ⟨hentry, rfl⟩, h⟩ := h
      split at h
      · obtain ⟨_, _, h, -⟩ := walk_bind_eq_ok.1 h
        exact absurd h walk_refuse
      · next hlisted =>
        -- the cell is inside the grid and new, so its tiles are inserted
        simp only [walk_bind_eq_ok, walk_checked, walk_tileLines _ _ _, walk_pure] at h
        obtain ⟨seen, _, ⟨hseen, rfl⟩, grid, _, ⟨lines, ⟨hgrid, rfl, hlines⟩, rfl⟩, rfl, rfl⟩ := h
        -- what has been read of the cell, put together as its text
        obtain ⟨c, rfl, rfl, rfl, rfl⟩ :
            ∃ c : CellText, c.line = line ∧ c.tileLines = lines ∧ c.x = x ∧ c.y = y :=
          ⟨⟨line, lines⟩, rfl, rfl, by rw [CellText.x, hx]; rfl, by rw [CellText.y, hy]; rfl⟩
        refine ⟨c, ⟨⟨hx, hy, hn, hlines⟩, ?_, ?_, hseen, hgrid, rfl⟩, rfl⟩
        · exact Bool.not_eq_false _ ▸ hinside
        · exact Bool.eq_false_iff.2 hlisted ▸ hentry
  · rintro ⟨c, h, rfl⟩
    refine ⟨c.line, _, rfl, c.x, _, ⟨h.wellFormed.x_eq, rfl⟩, c.y, _, ⟨h.wellFormed.y_eq, rfl⟩,
      c.tileLines.length, _, ⟨h.wellFormed.number, rfl⟩, ?_⟩
    -- neither of the two checks refuses the cell
    rw [if_neg (by rw [h.inside]; decide)]
    simp only [walk_bind_eq_ok, walk_checked]
    refine ⟨false, _, ⟨h.unseen, rfl⟩, ?_⟩
    rw [if_neg Bool.false_ne_true]
    simp only [walk_bind_eq_ok, walk_checked, walk_tileLines _ _ _, walk_pure]
    refine ⟨s'.seen, _, ⟨h.seen, rfl⟩, s'.grid, rest,
      ⟨c.tileLines, ⟨h.grid, rfl, h.wellFormed.tileLines⟩, rfl⟩, ?_, rfl⟩
    rw [← h.total]

/-- A cell that lies outside the grid, or is listed already, is refused. -/
theorem cellScript_refuses {s : Listing} {c : CellText} (h : c.WellFormed)
    (hbad : s.grid.contains c.x.toNat c.y.toNat = true →
      entryAt s.seen c.x.toNat c.y.toNat = .ok true) (rest : List Call) :
    ∃ cause rest', (cellScript s).walk (c.calls ++ rest) = .error (.refused cause) rest' := by
  have hline : (fields []).walk (c.calls ++ rest) =
      .ok c.line (c.tileLines.flatMap Tile.calls ++ rest) := walk_fields.2 rfl
  simp only [cellScript]
  rw [walk_bind_of_ok hline, walk_bind_of_ok (walk_number.2 ⟨h.x_eq, rfl⟩),
    walk_bind_of_ok (walk_number.2 ⟨h.y_eq, rfl⟩), walk_bind_of_ok (walk_count.2 ⟨h.number, rfl⟩)]
  -- it is refused for where it lies, or else for the mark of its position
  split
  · exact ⟨_, _, rfl⟩
  · next hinside =>
    have hentry := hbad (Bool.not_eq_false _ ▸ hinside)
    rw [walk_bind_of_ok (walk_checked.2 ⟨hentry, rfl⟩), if_pos rfl]
    exact ⟨_, _, rfl⟩

/-! ### Listings -/

/-- The positions of a row of cells. -/
def positions (cells : List CellText) : List (Nat × Nat) := cells.map CellText.position

/-- The listing has come to a row of cells, in a grid of a size: they lie in the grid, none is there
twice, and their tiles are in the grid in order. -/
structure Listing.Lists (s : Listing) (maxCol maxRow : UInt32) (header : Record)
    (cells : List CellText) : Prop where
  grid : (cells.flatMap CellText.tiles).foldlM insert (create maxCol maxRow header) = .ok s.grid
  seen_size : s.seen.rows = maxRow.toNat ∧ s.seen.cols = maxCol.toNat
  seen : ∀ x < maxCol.toNat, ∀ y < maxRow.toNat,
    s.seen.get? y x = some (decide ((x, y) ∈ positions cells))
  total : s.total = (cells.map (·.tileLines.length)).sum
  nodup : (positions cells).Nodup
  inside : ∀ c ∈ cells, c.x.toNat < maxCol.toNat ∧ c.y.toNat < maxRow.toNat

variable {s s' : Listing} {maxCol maxRow : UInt32} {header : Record} {cells : List CellText}
  {c : CellText}

theorem Listing.Lists.holds (h : s.Lists maxCol maxRow header cells) :
    s.grid.Holds maxCol maxRow header (cells.flatMap CellText.tiles) :=
  (holds_create maxCol maxRow header).foldlM h.grid

theorem Listing.Lists.contains_iff (h : s.Lists maxCol maxRow header cells) {x y : Nat} :
    s.grid.contains x y = true ↔ x < maxCol.toNat ∧ y < maxRow.toNat := by
  rw [TileGrid.contains_iff, h.holds.maxCol_eq, h.holds.maxRow_eq]

/-- **One cell.** Listing a cell in its turn keeps the listing true. -/
theorem Listing.Lists.step (h : s.Lists maxCol maxRow header cells) (hstep : s.Step c s') :
    s'.Lists maxCol maxRow header (cells ++ [c]) := by
  obtain ⟨hx, hy⟩ := h.contains_iff.1 hstep.inside
  have hseen := modifyAt_eq_ok.1 hstep.seen
  have hunseen := entryAt_eq_ok.1 hstep.unseen
  -- the mark that the script has checked stands for the cells that are listed
  have hnew : c.position ∉ positions cells := by
    have hlisted := h.seen _ hx _ hy
    rw [hunseen] at hlisted
    exact of_decide_eq_false (Option.some.inj hlisted).symm
  obtain ⟨-, hrows, hcols⟩ := Table.modify?_eq_some hseen
  have hpositions : positions (cells ++ [c]) = positions cells ++ [c.position] := by
    rw [positions, List.map_append]
    rfl
  refine ⟨?_, ⟨hrows.trans h.seen_size.1, hcols.trans h.seen_size.2⟩, fun x hx y hy => ?_, ?_, ?_,
    fun d hd => ?_⟩
  · rw [List.flatMap_append, List.foldlM_append, h.grid, List.flatMap_singleton]
    exact hstep.grid
  · rw [Table.get?_of_modify? hseen, h.seen x hx y hy, hpositions]
    -- only the mark of the new cell is changed
    by_cases hat : (x, y) = c.position
    · obtain ⟨rfl, rfl⟩ := Prod.mk.inj hat
      rw [if_pos ⟨rfl, rfl⟩]
      simp [CellText.position]
    · rw [if_neg fun heq => hat (Prod.ext heq.2 heq.1)]
      simp [hat]
  · rw [hstep.total, h.total]
    simp
  · rw [hpositions]
    -- a position that was not marked is not in the row
    refine List.nodup_append.2 ⟨h.nodup, List.pairwise_singleton _ _, fun p hp q hq heq => ?_⟩
    exact hnew (List.mem_singleton.1 hq ▸ heq ▸ hp)
  · rcases List.mem_append.1 hd with hd | hd
    · exact h.inside d hd
    · obtain rfl := List.mem_singleton.1 hd
      exact ⟨hx, hy⟩

/-- A cell inside the grid that is not listed yet can be listed. -/
theorem Listing.Lists.exists_step (h : s.Lists maxCol maxRow header cells) (hc : c.WellFormed)
    (hx : c.x.toNat < maxCol.toNat) (hy : c.y.toNat < maxRow.toNat)
    (hnew : c.position ∉ positions cells) : ∃ s', s.Step c s' := by
  have hunseen : entryAt s.seen c.x.toNat c.y.toNat = .ok false := by
    rw [entryAt_eq_ok, h.seen _ hx _ hy]
    exact congrArg some (decide_eq_false hnew)
  obtain ⟨seen, hseen⟩ := Table.exists_modify? (t := s.seen) (fun _ => true)
    (h.seen_size.1 ▸ hy) (h.seen_size.2 ▸ hx)
  -- all tiles of the cell have its position, which is inside the grid
  obtain ⟨grid, hgrid⟩ := h.holds.exists_foldlM fun t (ht : t ∈ c.tiles) => by
    obtain ⟨line, -, rfl⟩ := List.mem_map.1 ht
    exact ⟨hx, hy⟩
  exact ⟨⟨grid, seen, s.total + c.tileLines.length⟩, hc, h.contains_iff.2 ⟨hx, hy⟩, hunseen,
    modifyAt_eq_ok.2 hseen, hgrid, rfl⟩

/-- The listing in which the loop over the cells begins. -/
def Listing.empty (maxCol maxRow : UInt32) (header : Record) : Listing where
  grid := .create maxCol maxRow header
  seen := .replicate maxRow.toNat maxCol.toNat false
  total := 0

theorem Listing.lists_empty (maxCol maxRow : UInt32) (header : Record) :
    (empty maxCol maxRow header).Lists maxCol maxRow header [] where
  grid := rfl
  seen_size := ⟨rfl, rfl⟩
  seen _ hx _ hy := Table.get?_replicate false hy hx
  total := rfl
  nodup := List.nodup_nil
  inside := nofun

variable {done : List CellText}

/-- **A run of cells** in order makes a listing of all of them. -/
theorem Listing.Lists.chain (h : s.Lists maxCol maxRow header done) {i : Nat}
    (hchain : Chain (fun _ => Listing.Step) i s cells s') :
    s'.Lists maxCol maxRow header (done ++ cells) ∧ ∀ c ∈ cells, c.WellFormed := by
  -- the cells that are done move from the row into the listing
  induction cells generalizing s i done with
  | nil =>
    obtain rfl : s = s' := hchain
    exact ⟨by rwa [List.append_nil], nofun⟩
  | cons c cells ih =>
    obtain ⟨s₁, hstep, hchain⟩ := hchain
    obtain ⟨hlists, hcells⟩ := ih (h.step hstep) hchain
    rw [List.append_assoc, List.singleton_append] at hlists
    exact ⟨hlists, List.forall_mem_cons.2 ⟨hstep.wellFormed, hcells⟩⟩

/-- One round of the loop over the cells. -/
def cellRound (i : Nat) (s : Listing) : Script Listing := do
  .setRecord i (.done ())
  cellScript s

theorem cellRound_accepts (i : Nat) (s : Listing) :
    (cellRound i s).Accepts CellText.calls s.Step :=
  cellScript_accepts s

/-- A loop over cells in order lists them all, or it refuses one of them, for the reason that it
lies outside the grid or is listed twice. The loop is never stuck. -/
theorem Listing.Lists.exists_chain_or_refuses (h : s.Lists maxCol maxRow header done)
    (hcells : ∀ c ∈ cells, c.WellFormed) (i : Nat) (rest : List Call) :
    (∃ s', Chain (fun _ => Listing.Step) i s cells s') ∨
      ¬((positions (done ++ cells)).Nodup ∧
          ∀ c ∈ cells, c.x.toNat < maxCol.toNat ∧ c.y.toNat < maxRow.toNat) ∧
        ∃ cause rest', (rounds cellRound cells.length i s).walk
          (cells.flatMap CellText.calls ++ rest) = .error (.refused cause) rest' := by
  -- as for a whole run: what is listed grows by the cell that is in front
  induction cells generalizing s i done with
  | nil => exact .inl ⟨s, rfl⟩
  | cons c cells ih =>
    obtain ⟨hc, hcells⟩ := List.forall_mem_cons.1 hcells
    rw [List.flatMap_cons, List.append_assoc, List.length_cons, rounds, walk_bind]
    -- the next cell is good, or one of the two checks refuses it
    by_cases hgood : s.grid.contains c.x.toNat c.y.toNat = true ∧ c.position ∉ positions done
    · obtain ⟨hx, hy⟩ := h.contains_iff.1 hgood.1
      obtain ⟨s₁, hstep⟩ := h.exists_step hc hx hy hgood.2
      -- the cell is listed, and the others are listed or one of them is refused
      have hround := (cellRound_accepts i s _ (cells.flatMap CellText.calls ++ rest) s₁).2
        ⟨c, hstep, rfl⟩
      rcases ih (h.step hstep) hcells (i + 1) with ⟨s', hchain⟩ | ⟨hbad, cause, rest', hrefuses⟩
      · exact .inl ⟨s', s₁, hstep, hchain⟩
      · rw [List.append_assoc, List.singleton_append] at hbad
        refine .inr ⟨fun hall => hbad ⟨hall.1, ?_⟩, cause, rest',
          (bind_of_ok hround).trans hrefuses⟩
        exact (List.forall_mem_cons.1 hall.2).2
    · -- a cell inside the grid that is not new has its mark
      have hentry (hinside : s.grid.contains c.x.toNat c.y.toNat = true) :
          entryAt s.seen c.x.toNat c.y.toNat = .ok true := by
        obtain ⟨hx, hy⟩ := h.contains_iff.1 hinside
        have hlisted : c.position ∈ positions done :=
          Classical.not_not.1 fun hnew => hgood ⟨hinside, hnew⟩
        rw [entryAt_eq_ok, h.seen _ hx _ hy]
        exact congrArg some (decide_eq_true hlisted)
      obtain ⟨cause, rest', hrefuses⟩ := cellScript_refuses hc hentry
        (cells.flatMap CellText.calls ++ rest)
      refine .inr ⟨fun hall => hgood ⟨?_, fun hlisted => ?_⟩, cause, rest', bind_of_error hrefuses⟩
      · exact h.contains_iff.2 (hall.2 c List.mem_cons_self)
      · -- listed once more, its position would stand twice
        rw [positions, List.map_append] at hall
        exact (List.nodup_append.1 hall.1).2.2 _ hlisted _ (List.mem_map_of_mem List.mem_cons_self)
          rfl

end TileGrid

/-! ### The table -/

/-- The text of a table of tiles: its header and its cells. -/
structure TileTableText where
  header : Record
  cells : List CellText

namespace TileTableText

def maxCol (t : TileTableText) : UInt32 := (numberAt Text.uint32? t.header 1).getD 0

def maxRow (t : TileTableText) : UInt32 := (numberAt Text.uint32? t.header 2).getD 0

/-- The number of tiles that the header declares. -/
def declared (t : TileTableText) : Nat := (numberAt Text.count? t.header 7).getD 0

/-- The number of tiles that the cells announce, one after the other. -/
def total (t : TileTableText) : Nat := (t.cells.map (·.tileLines.length)).sum

def tiles (t : TileTableText) : List Tile := t.cells.flatMap CellText.tiles

/-- The positions that the cells give, in file order. -/
def positions (t : TileTableText) : List (Nat × Nat) := TileGrid.positions t.cells

def calls (t : TileTableText) : List Call :=
  .line (.only [0]) t.header :: t.cells.flatMap CellText.calls

/-- The header carries its tag and its numbers, there are as many cells as the grid has positions,
and each cell is in order in itself. -/
@[mk_iff]
structure WellFormed (t : TileTableText) : Prop where
  tag : t.header.headD "" = "bil_info"
  maxCol_eq : numberAt Text.uint32? t.header 1 = some t.maxCol
  maxRow_eq : numberAt Text.uint32? t.header 2 = some t.maxRow
  declared_eq : numberAt Text.count? t.header 7 = some t.declared
  belTypes : (numberAt Text.count? t.header 8).isSome
  number : t.cells.length = t.maxRow.toNat * t.maxCol.toNat
  cells : ∀ c ∈ t.cells, c.WellFormed

/-- Each position of the grid is listed exactly once, and the header declares as many tiles as the
cells announce. -/
@[mk_iff]
structure Complete (t : TileTableText) : Prop where
  once : ∀ x < t.maxCol.toNat, ∀ y < t.maxRow.toNat, t.positions.count (x, y) = 1
  total_eq : t.total = t.declared

instance (t : TileTableText) : Decidable t.WellFormed := decidable_of_iff' _ (wellFormed_iff ..)

instance (t : TileTableText) : Decidable t.Complete := decidable_of_iff' _ (complete_iff ..)

/-- **Nothing is missing if nothing is amiss.** As many positions as the grid has are all of its
positions, each of them once, exactly if none is outside the grid and none is there twice. -/
theorem once_iff {t : TileTableText} (h : t.cells.length = t.maxRow.toNat * t.maxCol.toNat) :
    (∀ x < t.maxCol.toNat, ∀ y < t.maxRow.toNat, t.positions.count (x, y) = 1) ↔
      t.positions.Nodup ∧
        ∀ c ∈ t.cells, c.x.toNat < t.maxCol.toNat ∧ c.y.toNat < t.maxRow.toNat := by
  -- all positions of the grid: as many as there are cells
  let all := List.range t.maxCol.toNat ×ˢ List.range t.maxRow.toNat
  have hall : all.Nodup := List.nodup_range.product List.nodup_range
  have hlength : t.positions.length = all.length := by
    rw [positions, TileGrid.positions, List.length_map, h, List.length_product, List.length_range,
      List.length_range, Nat.mul_comm]
  have hmem (x y : Nat) : (x, y) ∈ all ↔ x < t.maxCol.toNat ∧ y < t.maxRow.toNat :=
    List.pair_mem_product.trans (and_congr List.mem_range List.mem_range)
  refine ⟨?_, ?_⟩
  · intro honce
    -- all are listed, and there is no room for anything else
    have hsub : all ⊆ t.positions := by
      rintro ⟨x, y⟩ hxy
      obtain ⟨hx, hy⟩ := (hmem x y).1 hxy
      exact List.count_pos_iff.1 (by rw [honce x hx y hy]; exact Nat.one_pos)
    have hperm := (hall.subperm hsub).perm_of_length_le (Nat.le_of_eq hlength)
    refine ⟨hperm.nodup_iff.1 hall, fun c hc => ?_⟩
    exact (hmem _ _).1 (hperm.mem_iff.2 (List.mem_map_of_mem hc))
  · rintro ⟨hnodup, hinside⟩ x hx y hy
    -- what is listed fits into all, and leaves nothing out
    have hsub : t.positions ⊆ all := by
      intro p hp
      obtain ⟨c, hc, rfl⟩ := List.mem_map.1 hp
      exact (hmem _ _).2 (hinside c hc)
    have hperm := (hnodup.subperm hsub).perm_of_length_le (Nat.le_of_eq hlength.symm)
    exact List.count_eq_one_of_mem hnodup (hperm.mem_iff.2 ((hmem x y).2 ⟨hx, hy⟩))

end TileTableText

namespace TileGrid

variable {t : TileTableText}

/-- **The table of tiles.** What is accepted is what is well-formed and complete, and the grid is
what inserting the tiles in order makes of the empty grid. -/
theorem script_accepts :
    script.Accepts TileTableText.calls fun t g =>
      t.tiles.foldlM insert (create t.maxCol t.maxRow t.header) = .ok g ∧ t.WellFormed ∧
        t.Complete := by
  intro row rest g
  simp only [script, walk_enter_bind, walk_bind_eq_ok, walk_fields, walk_expectTag, walk_number,
    walk_count]
  refine ⟨?_, ?_⟩
  · rintro ⟨header, _, rfl, ⟨⟩, _, ⟨htag, rfl⟩, maxCol, _, ⟨hcol, rfl⟩, maxRow, _, ⟨hrow, rfl⟩,
      declared, _, ⟨hdeclared, rfl⟩, belTypes, _, ⟨hbel, rfl⟩, listing, _, hloop, h⟩
    obtain ⟨cells, hnumber, hchain, rfl⟩ := (walk_foldTimes cellRound_accepts).1 hloop
    split at h
    · obtain ⟨_, _, h, -⟩ := walk_bind_eq_ok.1 h
      exact absurd h walk_refuse
    · next htotal =>
      rw [walk_note_bind, walk_pure] at h
      obtain ⟨rfl, rfl⟩ := h
      -- what has been read, put together as the text of the table
      obtain ⟨t, rfl, rfl, rfl, rfl, rfl⟩ : ∃ t : TileTableText, t.header = header ∧
          t.cells = cells ∧ t.maxCol = maxCol ∧ t.maxRow = maxRow ∧ t.declared = declared := by
        refine ⟨⟨header, cells⟩, rfl, rfl, ?_, ?_, ?_⟩
        · rw [TileTableText.maxCol, hcol, Option.getD_some]
        · rw [TileTableText.maxRow, hrow, Option.getD_some]
        · rw [TileTableText.declared, hdeclared, Option.getD_some]
      obtain ⟨hlists, hcells⟩ := (Listing.lists_empty _ _ _).chain hchain
      rw [List.nil_append] at hlists
      refine ⟨t, ⟨hlists.grid, ⟨htag, hcol, hrow, hdeclared, ?_, hnumber, hcells⟩, ?_, ?_⟩, rfl⟩
      · rw [hbel, Option.isSome_some]
      · exact (TileTableText.once_iff hnumber).2 ⟨hlists.nodup, hlists.inside⟩
      · exact hlists.total.symm.trans (Classical.not_not.1 htotal)
  · rintro ⟨t, ⟨hgrid, h, hcomplete⟩, rfl⟩
    obtain ⟨hnodup, hinside⟩ := (TileTableText.once_iff h.number).1 hcomplete.once
    obtain ⟨belTypes, hbel⟩ := Option.isSome_iff_exists.1 h.belTypes
    have hempty := Listing.lists_empty t.maxCol t.maxRow t.header
    -- a complete table has no cell that is refused
    rcases hempty.exists_chain_or_refuses h.cells 0 rest with ⟨listing, hchain⟩ | ⟨hbad, -⟩
    · obtain ⟨hlists, -⟩ := hempty.chain hchain
      rw [List.nil_append] at hlists
      refine ⟨t.header, _, rfl, (), _, ⟨h.tag, rfl⟩, t.maxCol, _, ⟨h.maxCol_eq, rfl⟩, t.maxRow, _,
        ⟨h.maxRow_eq, rfl⟩, t.declared, _, ⟨h.declared_eq, rfl⟩, belTypes, _, ⟨hbel, rfl⟩, listing,
        rest, (walk_foldTimes cellRound_accepts).2 ⟨t.cells, h.number, hchain, rfl⟩, ?_⟩
      rw [if_neg (not_not_intro (hlists.total.trans hcomplete.total_eq)), walk_note_bind, walk_pure]
      exact ⟨Except.ok.inj (hlists.grid.symm.trans hgrid), rfl⟩
    · exact absurd ⟨hnodup, hinside⟩ hbad

/-- A well-formed table that is not complete is refused. -/
theorem script_refuses (h : t.WellFormed) (hincomplete : ¬t.Complete) (rest : List Call) :
    ∃ cause rest', script.walk (t.calls ++ rest) = .error (.refused cause) rest' := by
  obtain ⟨belTypes, hbel⟩ := Option.isSome_iff_exists.1 h.belTypes
  have hempty := Listing.lists_empty t.maxCol t.maxRow t.header
  have hheader : (fields [0]).walk (t.calls ++ rest) =
      .ok t.header (t.cells.flatMap CellText.calls ++ rest) := walk_fields.2 rfl
  simp only [script, walk_enter_bind]
  rw [walk_bind_of_ok hheader, walk_bind_of_ok ((walk_expectTag (u := ())).2 ⟨h.tag, rfl⟩),
    walk_bind_of_ok (walk_number.2 ⟨h.maxCol_eq, rfl⟩),
    walk_bind_of_ok (walk_number.2 ⟨h.maxRow_eq, rfl⟩),
    walk_bind_of_ok (walk_count.2 ⟨h.declared_eq, rfl⟩),
    walk_bind_of_ok (walk_count.2 ⟨hbel, rfl⟩)]
  rcases hempty.exists_chain_or_refuses h.cells 0 rest with
    ⟨listing, hchain⟩ | ⟨-, cause, rest', hrefuses⟩
  · obtain ⟨hlists, -⟩ := hempty.chain hchain
    rw [List.nil_append] at hlists
    -- all cells are listed, so it is the number of tiles that is wrong
    have htotal : listing.total ≠ t.declared := fun heq => hincomplete
      ⟨(TileTableText.once_iff h.number).2 ⟨hlists.nodup, hlists.inside⟩,
        hlists.total.symm.trans heq⟩
    have hloop : (foldTimes (t.maxRow.toNat * t.maxCol.toNat) cellRound
        (.empty t.maxCol t.maxRow t.header)).walk (t.cells.flatMap CellText.calls ++ rest) =
        .ok listing rest :=
      (walk_foldTimes cellRound_accepts).2 ⟨t.cells, h.number, hchain, rfl⟩
    refine ⟨.totalMismatch t.declared listing.total, rest, (walk_bind_of_ok hloop).trans ?_⟩
    rw [if_pos htotal]
    rfl
  · rw [h.number] at hrefuses
    exact ⟨cause, rest', walk_bind_of_error hrefuses⟩

end TileGrid

end ChipAtlas
