import ChipAtlas.Proofs.Script.Ensures
import ChipAtlas.Proofs.Tiles.Placed

/-!
# No look-up goes past its table

Whatever the bytes of a file are, decoding it comes to an end without a look-up past a table: it
gives a database, or names a violation of the form, or reports that the file or the sink failed. And
a database that it gives can be exported, in both layouts and with its fuse map, without such a
look-up either.

Nothing guards most of these look-ups where they are made. The tables of a grid are asked for the
cells of tiles, and a tile is only ever inserted at the position of a cell that was found inside the
grid. The marks that tell which cells have been listed have the size of the grid. What carries the
argument is therefore one invariant of the table of tiles (`TileGrid.Listing.Sized`), kept by every
cell and every tile, and what it says of the grid in the end.

The key symbol under the cursor needs no argument: a key stream carries the proof that its cursor is
inside the key.

* `TileGrid.ensures_cellScript` — one cell with its tiles;
* `TileGrid.ensures_script` — the table of tiles, from its header to its last cell;
* `Database.ensures_script` — the form of a whole file;
* `Reading.cause_of_line_allBut` — a line of which all but some fields are deciphered;
* `inBounds_of_decode` — every file.
-/

namespace ChipAtlas

open Script

/-! ### The table of tiles -/

/-- A tile has the position that it was asked for. -/
theorem Tile.ensures_script (x y : UInt32) :
    (script x y).Ensures fun t => t.x = x ∧ t.y = y := by
  have h := safe_modular
  refine (h.fields [0, 1]).bind fun line => (ensures_expectLength line 9).bind fun _ hlength => ?_
  have hname : (fieldAt line 0).Safe := safe_fieldAt (by omega)
  have hkind : (fieldAt line 1).Safe := safe_fieldAt (by omega)
  exact (h.number line 2 _).bind fun _ => (h.number line 3 _).bind fun _ =>
    ensures_check_bind fun _ => (h.number line 4 _).bind fun _ => (h.number line 5 _).bind fun _ =>
    (h.number line 6 _).bind fun _ => (h.number line 7 _).bind fun _ =>
    (h.number line 8 _).bind fun _ => ensures_check_bind fun _ => h.blankLine.bind fun _ =>
    hname.bind fun _ => hkind.bind fun _ => ⟨rfl, rfl⟩

namespace TileGrid

variable {maxCol maxRow : UInt32}

/-- Inside the grid a tile is inserted. -/
theorem Placed.ensures_insertScript {g : TileGrid} {t : Tile} (h : g.Placed maxCol maxRow)
    (hx : t.x.toNat < maxCol.toNat) (hy : t.y.toNat < maxRow.toNat) :
    (g.insertScript t).Ensures (·.Placed maxCol maxRow) := by
  obtain ⟨grown, hinsert, hgrown⟩ := h.exists_insert hx hy
  refine (ensures_checked hinsert).bind fun _ heq => ?_
  subst heq
  split
  · exact hgrown
  · exact hgrown

/-- While cells are read, the marks of the listed cells have the size of the grid. -/
structure Listing.Sized (maxCol maxRow : UInt32) (s : Listing) : Prop where
  placed : s.grid.Placed maxCol maxRow
  seen_size : s.seen.rows = maxRow.toNat ∧ s.seen.cols = maxCol.toNat

/-- **One cell.** It lies inside the grid when its mark is looked up, and so do its tiles when they
are inserted. -/
theorem ensures_cellScript {s : Listing} (hs : s.Sized maxCol maxRow) :
    (cellScript s).Ensures (Listing.Sized maxCol maxRow) := by
  have h := safe_modular
  refine (h.fields []).bind fun line => (h.number line 0 _).bind fun x =>
    (h.number line 1 _).bind fun y => (h.count line 2).bind fun n => ensures_check_bind fun hc => ?_
  obtain ⟨hx, hy⟩ := hs.placed.contains_iff.1 (Bool.not_eq_false _ ▸ hc)
  obtain ⟨hrows, hcols⟩ := hs.seen_size
  -- the cell has a mark, since there are marks for all cells of the grid
  obtain ⟨listed, hlisted⟩ : ∃ listed, entryAt s.seen x.toNat y.toNat = .ok listed := by
    have hsome : (s.seen.get? y.toNat x.toNat).isSome := by
      rw [Table.isSome_get?_iff, hrows, hcols]
      exact ⟨hy, hx⟩
    obtain ⟨listed, hget⟩ := Option.isSome_iff_exists.1 hsome
    exact ⟨listed, entryAt_eq_ok.2 hget⟩
  obtain ⟨seen, hseen⟩ := Table.exists_modify? (fun _ => true) (hrows ▸ hy) (hcols ▸ hx)
  have htiles : (foldTimes n (fun _ g => do g.insertScript (← Tile.script x y)) s.grid).Ensures
      (·.Placed maxCol maxRow) := by
    refine ensures_foldTimes (fun _ g hg => ?_) n hs.placed
    refine (Tile.ensures_script x y).bind fun t ht => ?_
    obtain ⟨rfl, rfl⟩ := ht
    exact hg.ensures_insertScript hx hy
  refine (ensures_checked hlisted).bind fun _ _ => ensures_check_bind fun _ =>
    (ensures_checked (modifyAt_eq_ok.2 hseen)).bind fun _ heq => htiles.bind fun grid hgrid => ?_
  subst heq
  obtain ⟨-, hrows', hcols'⟩ := Table.modify?_eq_some hseen
  exact ⟨hgrid, hrows'.trans hrows, hcols'.trans hcols⟩

/-- **The table of tiles.** At first there are no tiles, and no cell has been listed. -/
theorem ensures_script : script.Ensures fun g => ∃ maxCol maxRow, g.Placed maxCol maxRow := by
  have h := safe_modular
  refine (h.enter .tiles).bind fun _ => (h.fields [0]).bind fun header =>
    (h.expectTag header "bil_info").bind fun _ => (h.number header 1 _).bind fun maxCol =>
    (h.number header 2 _).bind fun maxRow => (h.count header 7).bind fun _ =>
    (h.count header 8).bind fun _ => ?_
  have hcells : (foldTimes (maxRow.toNat * maxCol.toNat)
      (fun i s => do .setRecord i (.done ()); cellScript s)
      ⟨.create maxCol maxRow header, .replicate maxRow.toNat maxCol.toNat false, 0⟩).Ensures
      (Listing.Sized maxCol maxRow) := by
    refine ensures_foldTimes (fun i s hs => ?_) _ ?_
    · exact (h.setRecord i).bind fun _ => ensures_cellScript hs
    · exact ⟨placed_create maxCol maxRow header, rfl, rfl⟩
  exact hcells.bind fun listing hlisting => ensures_check_bind fun _ =>
    (h.note _).bind fun _ => ⟨maxCol, maxRow, hlisting.placed⟩

end TileGrid

/-! ### A whole file -/

/-- A look at a line, whatever the line is, is followed by one of two scripts without tables. -/
theorem Serdes.safe_script : script.Safe := by
  intro blank
  cases blank with
  | true => exact safe_modular.serdesAbsent
  | false => exact safe_modular.serdesLists

/-- **The form of a whole file.** Only the table of tiles has tables to look into. -/
theorem Database.ensures_script :
    script.Ensures fun db => ∃ maxCol maxRow, db.grid.Placed maxCol maxRow := by
  have h := safe_modular
  exact h.header.bind fun header => (h.note _).bind fun _ =>
    (h.architectures header.architectures).bind fun _ => (h.routing header.variant).bind fun _ =>
    (h.legacyRouting header.variant).bind fun _ => h.models.bind fun _ => h.names.bind fun _ =>
    h.constraints.bind fun _ => h.pack.bind fun _ => h.timing.bind fun _ =>
    Serdes.safe_script.bind fun _ => h.catalogs.bind fun _ =>
    TileGrid.ensures_script.bind fun grid hgrid =>
    (h.trailer grid.header).bind fun _ => (h.noteLines _).bind fun _ => hgrid

/-! ### Fields of a line -/

namespace Reading

/-- Fields that are there are refused by the cipher only. -/
theorem exists_fault_of_decipherFields {indices : List Nat} {fields : Record} {cause : Cause}
    {keys keys' : Option Cipher.KeyStream} (hin : ∀ i ∈ indices, i < fields.length)
    (h : decipherFields indices fields keys = .error cause keys') :
    ∃ fault, cause = .cipher fault := by
  induction indices generalizing fields keys with
  | nil => exact absurd h Stateful.ok_ne_error
  | cons i indices ih =>
    have hi : i < fields.length := hin i List.mem_cons_self
    rw [decipherFields, List.getElem?_eq_getElem hi] at h
    dsimp only at h
    split at h
    · next text keys₁ hfield =>
      -- a deciphered field takes the place of the ciphered one
      refine ih (fun j hj => ?_) h
      rw [List.length_set]
      exact hin j (List.mem_cons_of_mem i hj)
    · next fault keys₁ hfield =>
      obtain ⟨rfl, -⟩ := EStateM.Result.error.inj h
      exact ⟨fault, rfl⟩

/-- **All but some fields.** The fields that are selected are fields of the line, so the line is
refused because it is not there or because of its cipher, and never for a field that is missing. -/
theorem cause_of_line_allBut {indices : List Nat} {s t : Reading} {v : Violation}
    (h : line (.allBut indices) s = .error (.violation v) t) :
    v.cause = .unexpectedEnd ∨ ∃ fault, v.cause = .cipher fault := by
  cases hlines : s.lines with
  | nil =>
    rw [line_nil hlines] at h
    obtain ⟨hv, -⟩ := EStateM.Result.error.inj h
    obtain rfl := Failure.violation.inj hv
    exact .inl rfl
  | cons first rest =>
    cases first with
    | unreadable =>
      rw [line_unreadable hlines] at h
      exact absurd (EStateM.Result.error.inj h).1 nofun
    | text raw =>
      rw [line_text hlines] at h
      cases hd : deciphered (.allBut indices) raw s.keys with
      | error cause keys =>
        rw [hd] at h
        obtain ⟨hv, -⟩ := EStateM.Result.error.inj h
        obtain rfl := Failure.violation.inj hv
        refine .inr (exists_fault_of_decipherFields (fun i hi => ?_) hd)
        exact List.mem_range.1 (List.mem_filter.1 hi).1
      | ok fields keys =>
        rw [hd] at h
        dsimp only at h
        split at h
        · exact absurd h Stateful.ok_ne_error
        · exact absurd (EStateM.Result.error.inj h).1 nofun

end Reading

/-! ### Every file -/

namespace Database

/-- What is made of a database without going past a table. -/
structure InBounds (db : Database) : Prop where
  /-- The exported grid, in both layouts. -/
  toJson : ∀ layout, ∃ json, db.grid.toJson layout = .ok json
  /-- An exported bit shows the raw texts of the variables that it describes, and finds each of
  them. -/
  tokenText : ∀ kind catalog, db.catalogs.get? kind = some catalog → ∀ b ∈ catalog.bits,
    ∀ id ∈ b.vars.keys, ∃ operand, b.vars.get? id = some operand ∧
      b.tokenText (.var id) = operand.raw
  /-- The fuse map, with its columns corrected or not. -/
  fuseMap : ∀ correct, ∃ fuses, db.fuseMap correct = .ok fuses

/-- A variable that is described is found. -/
theorem exists_tokenText {b : ConfigBit} {id : UInt32} (h : id ∈ b.vars.keys) :
    ∃ operand, b.vars.get? id = some operand ∧ b.tokenText (.var id) = operand.raw := by
  obtain ⟨e, he, rfl⟩ := List.mem_map.1 h
  have hget : b.vars.get? e.1 = some e.2 := OrderedMap.mem_entries_iff.1 he
  refine ⟨e.2, hget, ?_⟩
  rw [ConfigBit.tokenText, hget]

end Database

/-- **No look-up goes past its table.** Decoding a file ends with a database, a violation of the
form or a failure of the file or the sink, whatever the bytes and the dump are. A database that it
ends with can be exported in both layouts, with its catalogs and its fuse maps. And a line whose
fields are deciphered but for some is never refused for a field that is missing. -/
theorem inBounds_of_decode (bytes : List UInt8) (dump : Option Dump) :
    ((∃ db s, decode bytes dump = .ok db s ∧ db.InBounds) ∨
      (∃ v s, decode bytes dump = .error (.violation v) s) ∨
      ∃ e s, decode bytes dump = .error (.io e) s) ∧
    ∀ indices s v t, Reading.line (.allBut indices) s = .error (.violation v) t →
      v.cause = .unexpectedEnd ∨ ∃ fault, v.cause = .cipher fault := by
  refine ⟨?_, fun _ _ _ _ => Reading.cause_of_line_allBut⟩
  have hends := Database.ensures_script.run (.ofBytes bytes dump)
  rw [← decode] at hends
  cases hdecode : decode bytes dump with
  | ok db s =>
    rw [hdecode] at hends
    obtain ⟨maxCol, maxRow, hplaced⟩ : ∃ maxCol maxRow, db.grid.Placed maxCol maxRow := by
      cases hends with
      | ok h => exact h
    exact .inl ⟨db, s, rfl, hplaced.exists_toJson,
      fun _ _ _ _ _ _ hid => Database.exists_tokenText hid, hplaced.exists_build db.catalogs⟩
  | error e s =>
    rw [hdecode] at hends
    cases hends with
    | violation => exact .inr (.inl ⟨_, s, rfl⟩)
    | io => exact .inr (.inr ⟨_, s, rfl⟩)

end ChipAtlas
