import ChipAtlas.Proofs.Form.File
import ChipAtlas.Proofs.Script.Shows
import ChipAtlas.Proofs.TileTable

/-!
# Files that are written can be read

Whatever well-formed file a writer is given, line by line and with the cipher of each line, it
writes a text that is accepted, and the database has exactly the records of the file.

The argument has three parts. The writer carries all lines out, since from the line of the key on
there is a key stream. The text shows the reader the same row of calls. The row is a well-formed
file, so the script of the whole file walks along it.

* `FileText.exists_perform_calls` — the writer succeeds;
* `FileText.decode_of_perform` — the file is read back.
-/

namespace ChipAtlas

open Text (utf8)

namespace FileText

variable {t : FileText}

/-- A record of which nothing is ciphered is written without a key stream. -/
theorem write_unciphered (record : Record) (w : Writing) :
    (Call.line (.only []) record).write w =
      .ok () { w with lines := w.lines.push (String.intercalate " " record) } :=
  Writing.line_eq (.only []) record w

/-- **The writer succeeds.** Two lines are written before there is a key, and none of their fields
is ciphered. -/
theorem exists_perform_calls (hadm : ∀ call ∈ t.calls, call.Admissible)
    (hwritable : ∀ call ∈ t.calls, call.Writable) :
    ∃ trace w, perform t.calls {} = .ok trace w := by
  obtain ⟨rest, hcalls⟩ : ∃ rest, t.calls = .line (.only []) t.header.banner ::
      .line (.only []) t.header.keyLine :: .setKey t.header.key :: rest := ⟨_, rfl⟩
  rw [hcalls] at hadm hwritable ⊢
  obtain ⟨hne, hascii⟩ := hwritable (.setKey t.header.key) (by simp)
  -- the third call announces the key; from there on there is a key stream
  obtain ⟨keys, hkeys⟩ := Cipher.KeyStream.exists_create 0 hne hascii
  have hset (w : Writing) : (Call.setKey t.header.key).write w = .ok () { w with keys } := by
    rw [Call.write, Writing.setKey, hkeys]
  obtain ⟨trace, w, hrest⟩ := exists_perform
    (fun call (hcall : call ∈ rest) => hadm call (by simp [hcall]))
    (fun call hcall => hwritable call (by simp [hcall]))
    (w := ⟨#[String.intercalate " " t.header.banner, String.intercalate " " t.header.keyLine],
      some keys⟩) rfl
  exact ⟨_, w, perform_cons_of_ok (write_unciphered _ _)
    (perform_cons_of_ok (write_unciphered _ _) (perform_cons_of_ok (hset _) hrest))⟩

/-- What the writer writes is read back. -/
theorem exists_decode (h : t.WellFormed) (hadm : ∀ call ∈ t.calls, call.Admissible)
    {trace : List (Record × Option Nat)} {w : Writing} (hperform : perform t.calls {} = .ok trace w)
    (dump : Option Dump) (hroomy : Roomy dump) :
    ∃ grid s, t.GivesGrid grid ∧ decode (utf8 w.text) dump = .ok (t.value grid) s ∧
      s.lines = [] := by
  -- the table lists every cell once, so its tiles can be inserted
  obtain ⟨grid, hgrid⟩ := h.complete.exists_grid h.tiles
  obtain ⟨final, hshows, hready⟩ := Reading.shows_of_perform hadm hperform hroomy
  -- the row is a well-formed file, so the walk accepts it
  have hwalk : Database.script.walk t.calls = .ok (t.value grid) [] :=
    (accepts t.calls [] _).2 ⟨t, ⟨h, grid, hgrid, rfl⟩, (List.append_nil _).symm⟩
  -- the reading does what the walk does, and shows nothing behind it
  have hsim := Reading.simulates_walk Database.script t.calls _ final hshows
  rw [hwalk] at hsim
  obtain ⟨s, final', hrun, rfl, hagree⟩ := hsim
  exact ⟨grid, s, hgrid, hrun, hagree.lines_eq.symm.trans hready.lines_eq⟩

/-- **Round trip.** For every well-formed file whose fields are words, whose ciphered fields are
graphic and whose key is a non-empty ASCII text, the writer writes a text, the text is accepted to
its end, and the database has exactly the records of the file: the sections in file order, the
catalogs grouped by name, and the grid that inserting the tiles in file order makes of the empty
grid. -/
theorem decode_of_perform (t : FileText) (h : t.WellFormed)
    (hadm : ∀ call ∈ t.calls, call.Admissible) (hwritable : ∀ call ∈ t.calls, call.Writable)
    (dump : Option Dump) (hroomy : Roomy dump) :
    ∃ trace w grid s, perform t.calls {} = .ok trace w ∧ t.GivesGrid grid ∧
      decode (utf8 w.text) dump = .ok (t.value grid) s ∧ s.lines = [] := by
  obtain ⟨trace, w, hperform⟩ := exists_perform_calls hadm hwritable
  obtain ⟨grid, s, hgrid, hdecode, hlines⟩ := exists_decode h hadm hperform dump hroomy
  exact ⟨trace, w, grid, s, hperform, hgrid, hdecode, hlines⟩

/-- A region without entries. -/
def emptyRegion : WireRegion := ⟨["0", "0", "0", "0", "0"], []⟩

/-- A block with one bit, which is on if both of its variables are. -/
def smallBlock (kind bit : String) : BlockText where
  header := [kind, "1"]
  bits := [⟨[bit, "NONE", "0", "4", "0", "-1", "1", "0", "0", "3", "3", "2"], ["10", "8", "11"],
    ["10", "11", "8"], [["10", "PROPERTY(A)"], ["11", "WIRE(B)"]]⟩]

/-- A legacy file with something in every section. -/
def smallFile : FileText where
  header := ⟨["chip", "database"], ["magic", "ph1_100", "1"], [["arch"]]⟩
  architectures := [{
    nameLine := ["arch"]
    head := ["a", "b", "c"]
    lists := ⟨["0", "1", "0", "0", "0"], [[], [["wire"]], [], [], []]⟩
    dims := ["8", "9"]
    table := ["t"]
    pairs := ⟨["0", "2", "0", "0"],
      [⟨0, none⟩, ⟨2, some ["p", "q", "r", "s"]⟩, ⟨0, none⟩, ⟨0, none⟩]⟩
    elements := ⟨["2"], ["e", "f"]⟩
    misc := List.replicate 4 ["m"]
    indexed := (List.range 39).map fun i =>
      ⟨[toString (3 + i)], [["x"], ["y"]], ⟨List.replicate 5 "0", List.replicate 5 []⟩⟩ }]
  routing := {
    counts := ["1", "2"]
    leading := [⟨["0", "0", "0", "0", "1"], [["n", "7", "k"]]⟩]
    fixed := List.replicate 16 emptyRegion
    indexed := [⟨["1"], emptyRegion⟩, ⟨["1"], emptyRegion⟩]
    trailing := List.replicate 19 emptyRegion }
  legacyRouting := some ⟨⟨["1"], [emptyRegion]⟩, ⟨["1"], [["x"]]⟩⟩
  models := ⟨["1"], [⟨["1", "1"], [[⟨["leaf", "a", "2"], ["b", "c", "d", "e", "f", "g"]⟩]]⟩]⟩
  names := ⟨["1"], [["name"]]⟩
  constraints := ⟨["1"], [["io", "site"]]⟩
  pack := ⟨["pack", "1"], [["slice"]], ["kcap"]⟩
  timing := {
    tag := ["TimingLib", "1", "1", "1", "1"]
    pairs := [["p", "q"]]
    twoLine := [⟨["h", "i"], [["1"], ["2"]]⟩]
    threeLine := [⟨["j", "k"], [["1"], ["2"], ["3"]]⟩]
    nests := [⟨["nest", "x", "1"], [["1"], ["2"]], [(["item"], ["1"])]⟩] }
  serdes := .present ⟨["1"], [["pcie"]]⟩ ⟨["0"], []⟩
  bits := ⟨["bcc_info", "3"], [smallBlock "plb" "b0", smallBlock "pad" "b1", smallBlock "plb" "b2"]⟩
  tiles := TileGrid.swappedCells
  trailer := ⟨[["slice"], ["lut"], ["iob"]], [["skipped"]], ["FOOT_IOB"], ["end"]⟩

/-- A file of the current variant with given catalogs and tiles, and nothing else that may be
left out. -/
def sparseFile (blocks : List BlockText) (tiles : TileTableText) : FileText where
  header := ⟨["chip", "database"], ["magic", "|", "0"], []⟩
  architectures := []
  routing := {
    counts := ["0", "0"]
    leading := []
    fixed := List.replicate 16 emptyRegion
    indexed := []
    trailing := List.replicate 9 emptyRegion }
  legacyRouting := none
  models := ⟨["0"], []⟩
  names := ⟨["0"], []⟩
  constraints := ⟨["0"], []⟩
  pack := ⟨["pack", "0"], [], ["kcap"]⟩
  timing := ⟨["TimingLib", "0", "0", "0", "0"], [], [], [], []⟩
  serdes := .absent
  bits := ⟨["bcc_info", toString blocks.length], blocks⟩
  tiles
  trailer := ⟨[], [], ["FOOT_IOB"], ["end"]⟩

/-- A table of one cell without tiles. -/
def bareCell : TileTableText := ⟨["bil_info", "1", "1", "0", "0", "0", "0", "0", "0"],
  [⟨["0", "0", "0"], []⟩]⟩

/-- A table of one cell with one tile. -/
def tiledCell : TileTableText := ⟨["bil_info", "1", "1", "0", "0", "0", "0", "1", "0"],
  [⟨["0", "0", "1"], [["t", "plb", "0", "0", "1", "2", "30", "7", "-1"]]⟩]⟩

/-- The text that the writer makes of a file. -/
def written (t : FileText) : List UInt8 := utf8 (Stateful.endState (perform t.calls {})).text

theorem wellFormed_smallFile : smallFile.WellFormed := by decide +kernel

theorem admissible_smallFile : ∀ call ∈ smallFile.calls, call.Admissible := by decide +kernel

theorem writable_smallFile : ∀ call ∈ smallFile.calls, call.Writable := by decide +kernel

/-- The small file can be written, and is read with every dump without a limit. -/
theorem exists_decode_smallFile (dump : Option Dump) (hroomy : Roomy dump) :
    ∃ trace w grid s, perform smallFile.calls {} = .ok trace w ∧
      decode (utf8 w.text) dump = .ok (smallFile.value grid) s := by
  obtain ⟨trace, w, hperform⟩ := exists_perform_calls admissible_smallFile writable_smallFile
  obtain ⟨grid, s, -, hdecode, -⟩ :=
    exists_decode wellFormed_smallFile admissible_smallFile hperform dump hroomy
  exact ⟨trace, w, grid, s, hperform, hdecode⟩

theorem decode_of_perform_smallFile :
    smallFile.WellFormed ∧ smallFile.variant = .legacy ∧
      ∃ trace w grid s, perform smallFile.calls {} = .ok trace w ∧ smallFile.GivesGrid grid ∧
        decode (utf8 w.text) none = .ok (smallFile.value grid) s ∧
        (smallFile.value grid).catalogs.keys = ["plb", "pad"] := by
  obtain ⟨trace, w, grid, s, hperform, hgrid, hdecode, -⟩ :=
    decode_of_perform smallFile wellFormed_smallFile admissible_smallFile writable_smallFile none
      nofun
  have hkeys : smallFile.bits.value.keys = ["plb", "pad"] := by decide +kernel
  exact ⟨wellFormed_smallFile, by decide, trace, w, grid, s, hperform, hgrid, hdecode, hkeys⟩

end FileText

end ChipAtlas
