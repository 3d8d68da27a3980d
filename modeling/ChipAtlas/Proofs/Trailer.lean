import ChipAtlas.Proofs.Cipher.Cursor
import ChipAtlas.Proofs.Form.Tiles
import ChipAtlas.Proofs.Form.Trailer
import ChipAtlas.Proofs.InBounds
import ChipAtlas.Proofs.Reading.Dump
import ChipAtlas.Proofs.Script.Advances
import ChipAtlas.Proofs.Script.Attentive

/-!
# The lines of a trailer

Behind the table of tiles, a reading accepts the lines that begin with a trailer and no others.
Which lines these are is said without a reading (`TrailerLines`): where the blank lines stand, how
many names are between them, and that the first fields are deciphered one after the other, by a key
stream that goes on from line to line. The search for the footer therefore depends on all lines
before it, and it ends at the first record that a footer word opens.

The two are compared by way of the row of requests that a trailer makes (`TrailerText.row`). A
reading shows the row if its lines give the records of the row, one each (`Gives`), and if there is
room for the records in the dump. Lines that are no text, and a dump that is full, are the two ways
in which the world around a file is in the way (`trailerLines_refused`).

* `gives_of_shows`, `exists_shows_of_gives` — rows of requests;
* `TrailerText.trailerLines_iff` — the row of a trailer;
* `Trailer.run_iff_trailerLines` — what is accepted, and what is left when a reading fails.
-/

namespace ChipAtlas

open Cipher (KeyStream)
open Stateful
open Text (wordsOf)

/-! ### Rows of lines -/

/-- A row of requests for lines, each with the record that it gives. -/
abbrev LineRow := List (Selection × Record)

/-- The calls of a row of requests. -/
def LineRow.calls (row : LineRow) : List Call := row.map fun c => .line c.1 c.2

/-- The records of a row of requests. -/
def LineRow.records (row : LineRow) : List Record := row.map Prod.snd

/-- Lines of text give the records of a row, one each, and move the key stream. -/
inductive Gives : Option KeyStream → List Text.Line → LineRow → Option KeyStream → Prop
  | nil (keys : Option KeyStream) : Gives keys [] [] keys
  | cons {keys keys₁ keys' : Option KeyStream} {raw : String} {selection : Selection}
      {record : Record} {used : List Text.Line} {row : LineRow}
      (first : Reading.deciphered selection raw keys = .ok record keys₁)
      (others : Gives keys₁ used row keys') :
      Gives keys (.text raw :: used) ((selection, record) :: row) keys'

section Rows

variable {keys keys' : Option KeyStream} {ks ks' : KeyStream} {used : List Text.Line}
  {row row' : LineRow} {records : List Record} {record : Record} {s s' : Reading}

/-- No record that lines give has a line feed. -/
theorem Gives.lineFeed_not_mem (h : Gives keys used row keys') :
    ∀ record ∈ row.records, ∀ f ∈ record, '\n' ∉ f.toList := by
  induction h with
  | nil => exact fun _ hrecord => absurd hrecord List.not_mem_nil
  | cons first others ih =>
    exact List.forall_mem_cons.2 ⟨lineFeed_not_mem_of_deciphered first, ih⟩

theorem gives_append_iff : Gives keys used (row ++ row') keys' ↔
    ∃ before behind keys₁, used = before ++ behind ∧ Gives keys before row keys₁ ∧
      Gives keys₁ behind row' keys' := by
  induction row generalizing keys used with
  | nil =>
    refine ⟨fun h => ⟨[], used, keys, rfl, .nil keys, h⟩, ?_⟩
    rintro ⟨before, behind, keys₁, rfl, hbefore, hbehind⟩
    cases hbefore
    exact hbehind
  | cons c row ih =>
    refine ⟨fun h => ?_, ?_⟩
    · cases h with
      | cons first others =>
        obtain ⟨before, behind, keys₁, rfl, hbefore, hbehind⟩ := ih.1 others
        exact ⟨_ :: before, behind, keys₁, rfl, .cons first hbefore, hbehind⟩
    · rintro ⟨before, behind, keys₁, rfl, hbefore, hbehind⟩
      cases hbefore with
      | cons first others => exact .cons first (ih.2 ⟨_, _, _, rfl, others, hbehind⟩)

/-- A reading that shows a row has its lines, and has put its records into the dump. -/
theorem gives_of_shows (h : s.Shows row.calls s') :
    ∃ used, s.lines = used ++ s'.lines ∧ Gives s.keys used row s'.keys ∧
      Dumps s.dump row.records s'.dump := by
  induction row generalizing s with
  | nil =>
    obtain rfl : s = s' := h
    exact ⟨[], rfl, .nil s.keys, rfl⟩
  | cons c row ih =>
    obtain ⟨s₁, hcall, hshows⟩ := h
    obtain ⟨raw, rest, keys, hlines, hd, hcomplete, rfl⟩ := Reading.line_eq_ok.1 hcall
    obtain ⟨used, hused, hgives, hdumps⟩ := ih hshows
    refine ⟨.text raw :: used, ?_, .cons hd hgives, lineFeed_not_mem_of_deciphered hd, hcomplete,
      hdumps⟩
    rw [hlines, List.cons_append, ← hused]
    rfl

/-- A reading that has the lines of a row shows the row, if its records go into the dump. -/
theorem exists_shows_of_gives {rest : List Text.Line} {dump : Option Dump}
    (hlines : s.lines = used ++ rest) (hgives : Gives s.keys used row keys')
    (hdumps : Dumps s.dump row.records dump) :
    ∃ s', s.Shows row.calls s' ∧ s'.lines = rest ∧ s'.keys = keys' ∧ s'.dump = dump := by
  induction row generalizing s used with
  | nil =>
    cases hgives
    exact ⟨s, rfl, hlines, rfl, hdumps⟩
  | cons c row ih =>
    cases hgives with
    | @cons _ keys₁ _ raw selection record used _ first others =>
      obtain ⟨-, hcomplete, hdumps⟩ := hdumps
      let s₁ : Reading :=
        { s.taken (used ++ rest) with keys := keys₁, dump := (emitTo s.dump record).1 }
      have hline : Reading.line selection s = .ok record s₁ :=
        Reading.line_eq_ok.2 ⟨raw, used ++ rest, keys₁, hlines, first, hcomplete, rfl⟩
      obtain ⟨s', hshows, hend⟩ := ih (s := s₁) rfl others hdumps
      exact ⟨s', ⟨s₁, hline, hshows⟩, hend⟩

/-! ### Lines with a ciphered head -/

/-- Lines whose first fields are deciphered one after the other, the key stream going on from line
to line, and the records that this gives. -/
inductive HeadsDecipher : KeyStream → List Text.Line → List Record → KeyStream → Prop
  | nil (ks : KeyStream) : HeadsDecipher ks [] [] ks
  | cons {ks ks₁ ks' : KeyStream} {raw head text : String} {others : List String}
      {lines : List Text.Line} {records : List Record} (words : wordsOf raw = head :: others)
      (head : KeyStream.decipher head ks = .ok text ks₁)
      (rest : HeadsDecipher ks₁ lines records ks') :
      HeadsDecipher ks (.text raw :: lines) ((text :: others) :: records) ks'

/-- The first field of a line is deciphered, if there is one. -/
theorem deciphered_head_iff {raw : String} :
    Reading.deciphered (.only [0]) raw (some ks) = .ok record keys' ↔
      ∃ head others text ks', wordsOf raw = head :: others ∧
        KeyStream.decipher head ks = .ok text ks' ∧ record = text :: others ∧ keys' = some ks' := by
  rw [Reading.deciphered]
  change decipherFields [0] (wordsOf raw) (some ks) = _ ↔ _
  cases hwords : wordsOf raw with
  | nil =>
    refine ⟨fun h => absurd h error_ne_ok, ?_⟩
    rintro ⟨head, others, text, ks', h, -⟩
    cases h
  | cons head others =>
    cases hhead : KeyStream.decipher head ks with
    | error fault ks' =>
      have hfields : decipherFields [0] (head :: others) (some ks) =
          .error (.cipher fault) (some ks') := by
        simp [decipherFields, decipherField, hhead]
      rw [hfields]
      refine ⟨fun h => absurd h error_ne_ok, ?_⟩
      rintro ⟨head', others', text, ks'', hcons, htext, -⟩
      obtain ⟨rfl, rfl⟩ := List.cons.inj hcons
      exact absurd (htext.symm.trans hhead) ok_ne_error
    | ok text ks' =>
      have hfields : decipherFields [0] (head :: others) (some ks) =
          .ok (text :: others) (some ks') := by
        simp [decipherFields, decipherField, hhead]
      rw [hfields]
      refine ⟨fun h => ?_, ?_⟩
      · obtain ⟨rfl, rfl⟩ := EStateM.Result.ok.inj h
        exact ⟨head, others, text, ks', rfl, hhead, rfl, rfl⟩
      · rintro ⟨head', others', text', ks'', hcons, htext, rfl, rfl⟩
        obtain ⟨rfl, rfl⟩ := List.cons.inj hcons
        obtain ⟨rfl, rfl⟩ := EStateM.Result.ok.inj (hhead.symm.trans htext)
        rfl

theorem deciphered_plain_iff {raw : String} :
    Reading.deciphered (.only []) raw keys = .ok record keys' ↔
      wordsOf raw = record ∧ keys = keys' :=
  pure_eq_ok

theorem gives_heads_iff : Gives (some ks) used (records.map (Prod.mk (.only [0]))) keys' ↔
    ∃ ks', keys' = some ks' ∧ HeadsDecipher ks used records ks' := by
  induction records generalizing ks used with
  | nil =>
    refine ⟨fun h => ?_, ?_⟩
    · cases h
      exact ⟨ks, rfl, .nil ks⟩
    · rintro ⟨ks', rfl, h⟩
      cases h
      exact .nil _
  | cons record records ih =>
    refine ⟨fun h => ?_, ?_⟩
    · cases h with
      | cons first others =>
        obtain ⟨head, rest, text, ks₁, hwords, htext, rfl, rfl⟩ := deciphered_head_iff.1 first
        obtain ⟨ks', rfl, hrest⟩ := ih.1 others
        exact ⟨ks', rfl, .cons hwords htext hrest⟩
    · rintro ⟨ks', rfl, h⟩
      cases h with
      | cons words head rest =>
        refine .cons (deciphered_head_iff.2 ⟨_, _, _, _, words, head, rfl, rfl⟩) ?_
        exact ih.2 ⟨ks', rfl, rest⟩

theorem gives_plain_iff : Gives keys used [(.only [], record)] keys' ↔
    ∃ raw, used = [.text raw] ∧ wordsOf raw = record ∧ keys = keys' := by
  refine ⟨fun h => ?_, ?_⟩
  · cases h with
    | cons first others =>
      cases others
      obtain ⟨hwords, hkeys⟩ := deciphered_plain_iff.1 first
      exact ⟨_, rfl, hwords, hkeys⟩
  · rintro ⟨raw, rfl, hwords, hkeys⟩
    exact .cons (deciphered_plain_iff.2 ⟨hwords, hkeys⟩) (.nil _)

end Rows

/-! ### The form of the trailer, line by line -/

/-- A footer word stands first in a record. -/
def OpensFooter (record : Record) : Prop :=
  record.head? = some "power%%20no" ∨ record.head? = some "FOOT_IOB"

instance : DecidablePred OpensFooter := fun record =>
  inferInstanceAs (Decidable (record.head? = some _ ∨ record.head? = some _))

theorem isFooter_iff {record : Record} : Trailer.isFooter record = true ↔ OpensFooter record := by
  cases record with
  | nil => simp [Trailer.isFooter, OpensFooter]
  | cons first others => simp [Trailer.isFooter, Trailer.footers, OpensFooter]

/-- The records of a trailer as they are read: the blank lines stand in front of the names and of
what is searched. -/
def Trailer.records (t : Trailer) : List Record := [] :: (t.belTypes ++ [] :: t.tail)

theorem Trailer.records_ne_nil (t : Trailer) : t.records ≠ [] := List.cons_ne_nil _ _

/-- **Lines that begin with a trailer**: a blank line; as many lines as there are primitive types;
a blank line; lines up to the first that a footer word opens; and one more line. The first fields of
the named and of the searched lines are deciphered, the key stream going on from line to line. -/
inductive TrailerLines (n : Nat) (ks : KeyStream) :
    List Text.Line → Trailer → KeyStream → List Text.Line → Prop
  | intro {blank blank' last : String} {names scanned rest : List Text.Line}
      {belTypes skipped : List Record} {footer : Record} {ks₁ ks' : KeyStream}
      (wordsOf_blank : wordsOf blank = []) (wordsOf_blank' : wordsOf blank' = [])
      (length_names : names.length = n) (names_heads : HeadsDecipher ks names belTypes ks₁)
      (scanned_heads : HeadsDecipher ks₁ scanned (skipped ++ [footer]) ks')
      (not_opens : ∀ record ∈ skipped, ¬OpensFooter record) (opens : OpensFooter footer) :
      TrailerLines n ks (.text blank :: (names ++ .text blank' :: (scanned ++ .text last :: rest)))
        ⟨belTypes, skipped ++ [footer] ++ [wordsOf last]⟩ ks' rest

theorem HeadsDecipher.length_eq {ks ks' : KeyStream} {lines : List Text.Line}
    {records : List Record} (h : HeadsDecipher ks lines records ks') :
    lines.length = records.length := by
  induction h with
  | nil => rfl
  | cons words head rest ih => rw [List.length_cons, List.length_cons, ih]

namespace TrailerText

/-- The trailer as a row of requests. -/
def row (t : TrailerText) : LineRow :=
  [(.only [], [])] ++ (t.belTypes.map (Prod.mk (.only [0])) ++ ([(.only [], [])] ++
    ((t.skipped ++ [t.footer]).map (Prod.mk (.only [0])) ++ [(.only [], t.last)])))

theorem calls_row (t : TrailerText) : t.row.calls = t.calls := by
  simp [row, LineRow.calls, calls, blankCall, Function.comp_def]

theorem records_row (t : TrailerText) : t.row.records = t.value.records := by
  simp [row, LineRow.records, value, Trailer.records, Function.comp_def]

variable {header : Record} {n : Nat} {ks : KeyStream} {used rest : List Text.Line}
  {keys' : Option KeyStream}

theorem gives_row_iff {t : TrailerText} : Gives (some ks) used t.row keys' ↔
    ∃ blank names blank' scanned last ks₁ ks', wordsOf blank = [] ∧
      HeadsDecipher ks names t.belTypes ks₁ ∧ wordsOf blank' = [] ∧
      HeadsDecipher ks₁ scanned (t.skipped ++ [t.footer]) ks' ∧ wordsOf last = t.last ∧
      keys' = some ks' ∧
      used = .text blank :: (names ++ .text blank' :: (scanned ++ [.text last])) := by
  simp only [row, gives_append_iff, gives_plain_iff]
  refine ⟨?_, ?_⟩
  · rintro ⟨_, _, _, rfl, ⟨blank, rfl, hblank, rfl⟩, names, _, _, rfl, hgives, _, _, _, rfl,
      ⟨blank', rfl, hblank', rfl⟩, scanned, _, _, rfl, hgives', last, rfl, hlast, rfl⟩
    obtain ⟨ks₁, rfl, hnames⟩ := gives_heads_iff.1 hgives
    obtain ⟨ks', rfl, hscanned⟩ := gives_heads_iff.1 hgives'
    exact ⟨blank, names, blank', scanned, last, ks₁, ks', hblank, hnames, hblank', hscanned, hlast,
      rfl, rfl⟩
  · rintro ⟨blank, names, blank', scanned, last, ks₁, ks', hblank, hnames, hblank', hscanned, hlast,
      rfl, rfl⟩
    exact ⟨_, _, _, rfl, ⟨blank, rfl, hblank, rfl⟩, names, _, _, rfl,
      gives_heads_iff.2 ⟨ks₁, rfl, hnames⟩, _, _, _, rfl, ⟨blank', rfl, hblank', rfl⟩,
      scanned, _, _, rfl, gives_heads_iff.2 ⟨ks', rfl, hscanned⟩, last, rfl, hlast, rfl⟩

/-- Lines begin with a trailer if they give a well-formed one. -/
theorem trailerLines_iff {trailer : Trailer} {lines : List Text.Line} {ks' : KeyStream}
    (hn : Script.numberAt Text.count? header 8 = some n) :
    TrailerLines n ks lines trailer ks' rest ↔
      ∃ (t : TrailerText) (used : List Text.Line), t.value = trailer ∧ t.WellFormed header ∧
        lines = used ++ rest ∧ Gives (some ks) used t.row (some ks') := by
  refine ⟨?_, ?_⟩
  · intro h
    obtain @⟨blank, blank', last, names, scanned, _, belTypes, skipped, footer, ks₁, _, hblank,
      hblank', hlength, hnames, hscanned, hskipped, hfooter⟩ := h
    refine ⟨⟨belTypes, skipped, footer, wordsOf last⟩,
      .text blank :: (names ++ .text blank' :: (scanned ++ [.text last])), rfl, ?_, by simp,
      gives_row_iff.2 ⟨blank, names, blank', scanned, last, ks₁, ks', hblank, hnames, hblank',
        hscanned, rfl, rfl, rfl⟩⟩
    refine ⟨?_, fun record hrecord => ?_, isFooter_iff.2 hfooter⟩
    · rw [hn, ← hlength, hnames.length_eq]
    · exact Bool.eq_false_iff.2 fun h => hskipped record hrecord (isFooter_iff.1 h)
  · rintro ⟨t, used, rfl, h, rfl, hgives⟩
    obtain ⟨blank, names, blank', scanned, last, ks₁, ks₂, hblank, hnames, hblank', hscanned, hlast,
      hkeys, rfl⟩ := gives_row_iff.1 hgives
    obtain rfl := Option.some.inj hkeys
    have hcount : names.length = n := by
      rw [hnames.length_eq]
      exact Option.some.inj (h.belTypeCount.symm.trans hn)
    have hcut : .text blank :: (names ++ .text blank' :: (scanned ++ [.text last])) ++ rest =
        .text blank :: (names ++ .text blank' :: (scanned ++ .text last :: rest)) := by simp
    rw [hcut, value, ← hlast]
    exact .intro hblank hblank' hcount hnames hscanned
      (fun record hrecord hopens => Bool.false_ne_true
        ((h.skipped record hrecord).symm.trans (isFooter_iff.2 hopens))) (isFooter_iff.1 h.footer)

end TrailerText

/-! ### What is accepted -/

namespace Trailer

section Run

variable {header : Record} {n : Nat} {s s' : Reading} {ks ks' : KeyStream} {t : Trailer}
  {rest : List Text.Line}

/-- A reading that accepts a trailer had its lines, and room for its records. -/
theorem trailerLines_of_run (hn : Script.numberAt Text.count? header 8 = some n)
    (hkeys : s.keys = some ks) (hrun : (script header).run s = .ok t s') :
    ∃ ks', s'.keys = some ks' ∧ TrailerLines n ks s.lines t ks' s'.lines ∧
      HasRoom s.dump t.records := by
  obtain ⟨row, final, hwalk, hshows, hfinal⟩ :=
    Reading.exists_walk_of_run (Script.attentive_modular.trailer header) hrun
  obtain ⟨text, ⟨rfl, htext⟩, rfl⟩ := (TrailerText.accepts header row [] t).1 hwalk
  rw [List.append_nil, ← text.calls_row] at hshows
  obtain ⟨used, hlines, hgives, hdumps⟩ := gives_of_shows hshows
  rw [hkeys, ← hfinal.keys_eq] at hgives
  rw [← hfinal.lines_eq] at hlines
  obtain ⟨-, -, -, -, -, -, ks', -, -, -, -, -, hkeys', -⟩ := TrailerText.gives_row_iff.1 hgives
  rw [hkeys'] at hgives
  -- what deciphered lines give has no line feed, so the dump has taken it line by line
  have hfeed := hgives.lineFeed_not_mem
  rw [text.records_row] at hdumps hfeed
  exact ⟨ks', hkeys', (TrailerText.trailerLines_iff hn).2 ⟨text, used, rfl, htext, hlines, hgives⟩,
    (exists_dumps_iff text.value.records_ne_nil hfeed).1 ⟨_, hdumps⟩⟩

/-- A reading that has the lines of a trailer, and room for its records, accepts it. -/
theorem exists_run_of_trailerLines (hn : Script.numberAt Text.count? header 8 = some n)
    (hkeys : s.keys = some ks) (hlines : TrailerLines n ks s.lines t ks' rest)
    (hroom : HasRoom s.dump t.records) :
    ∃ s', (script header).run s = .ok t s' ∧ s'.lines = rest ∧ s'.keys = some ks' := by
  obtain ⟨text, used, rfl, htext, hused, hgives⟩ := (TrailerText.trailerLines_iff hn).1 hlines
  have hfeed := hgives.lineFeed_not_mem
  rw [text.records_row] at hfeed
  obtain ⟨dump, hdumps⟩ := (exists_dumps_iff text.value.records_ne_nil hfeed).2 hroom
  rw [← text.records_row] at hdumps
  obtain ⟨final, hshows, hrest, hfinalKeys, -⟩ :=
    exists_shows_of_gives hused (hkeys ▸ hgives) hdumps
  rw [text.calls_row] at hshows
  obtain ⟨s', hrun, hagrees⟩ :=
    Reading.exists_run_of_shows (TrailerText.accepts header) ⟨rfl, htext⟩ hshows
  exact ⟨s', hrun, hagrees.lines_eq.trans hrest, hagrees.keys_eq.trans hfinalKeys⟩

end Run

/-- **The trailer behind a table of tiles.** The table says how many primitive types there are. A
reading with a key stream accepts the lines that begin with a trailer of so many names, if there is
room for its records in the dump; it keeps the trailer, goes on with the key stream behind it, and
leaves the lines behind it. In every other case it fails, and not for want of an entry of a table;
it has then taken no more lines than there were, and has asked for at most one more. -/
theorem run_iff_trailerLines {s₀ s₁ : Reading} {g : TileGrid}
    (hgrid : TileGrid.script.run s₀ = .ok g s₁) :
    ∃ n, Script.numberAt Text.count? g.header 8 = some n ∧
      ∀ (s : Reading) (ks : KeyStream), s.keys = some ks →
        (∀ t keys' rest,
          (∃ s', (script g.header).run s = .ok t s' ∧ s'.keys = keys' ∧ s'.lines = rest) ↔
            ∃ ks', keys' = some ks' ∧ TrailerLines n ks s.lines t ks' rest ∧
              HasRoom s.dump t.records) ∧
        ((∀ t ks' rest, TrailerLines n ks s.lines t ks' rest → ¬HasRoom s.dump t.records) →
          ∃ e s', (script g.header).run s = .error e s' ∧ (∀ index, e ≠ .breach index) ∧
            Reading.Advances s (.error e s' : EStateM.Result Failure Reading Trailer)) := by
  obtain ⟨row, -, hwalk, -, -⟩ := Reading.exists_walk_of_run TileGrid.attentive_script hgrid
  obtain ⟨table, ⟨hinsert, htable, -⟩, -⟩ := (TileGrid.script_accepts row [] g).1 hwalk
  obtain ⟨n, hn⟩ := Option.isSome_iff_exists.1 htable.belTypes
  rw [← TileGrid.header_of_foldlM hinsert] at hn
  refine ⟨n, hn, fun s ks hkeys => ⟨fun t keys' rest => ⟨?_, ?_⟩, fun hnone => ?_⟩⟩
  · rintro ⟨s', hrun, rfl, rfl⟩
    exact trailerLines_of_run hn hkeys hrun
  · rintro ⟨ks', rfl, hlines, hroom⟩
    obtain ⟨s', hrun, hrest, hkeys'⟩ := exists_run_of_trailerLines hn hkeys hlines hroom
    exact ⟨s', hrun, hkeys', hrest⟩
  · have hends := (Script.safe_modular.trailer g.header).run s
    have hadvances := Reading.advances_run (script g.header) s
    cases hrun : (script g.header).run s with
    | ok t s' =>
      obtain ⟨ks', -, hlines, hroom⟩ := trailerLines_of_run hn hkeys hrun
      exact absurd hroom (hnone t ks' _ hlines)
    | error e s' =>
      rw [hrun] at hends hadvances
      refine ⟨e, s', rfl, ?_, hadvances⟩
      cases hends <;> exact nofun

/-! ### A short trailer -/

/-- The lines of a table without tiles, and of a trailer up to its footer. -/
def shortLines : List Text.Line :=
  [.text "g-pd-rk3 0 0 0 0 0 0 0 1", .text "", .text "wq-gj", .text "", .text "1mx' 1",
    .text "JTpXdjSG 0"]

/-- A file of these lines and others behind them. -/
def shortFile (last : List Text.Line) (dump : Option Dump) : Reading where
  lines := shortLines ++ last
  keys := some mixedStart
  dump

/-- The table without tiles. -/
def shortGrid : TileGrid := .create 0 0 ["bil_info", "0", "0", "0", "0", "0", "0", "0", "1"]

/-- What is kept of the trailer. -/
def short (last : Record) : Trailer :=
  ⟨[["slice"]], [["misc", "1"], ["FOOT_IOB", "0"], last]⟩

/-- The key stream at the end of the table. -/
def shortStart : KeyStream := mixedStart.moved 2

/-- The key stream at the end of the trailer. -/
def shortEnd : KeyStream := mixedStart.moved 1

theorem trailerLines_short (last : String) (rest : List Text.Line) :
    TrailerLines 1 shortStart (shortLines.tail ++ .text last :: rest) (short (wordsOf last))
      shortEnd rest := by
  have hslice : wordsOf "wq-gj" = ["wq-gj"] := by decide +kernel
  have hmisc : wordsOf "1mx' 1" = ["1mx'", "1"] := by decide +kernel
  have hfooter : wordsOf "JTpXdjSG 0" = ["JTpXdjSG", "0"] := by decide +kernel
  have hnames : HeadsDecipher shortStart [.text "wq-gj"] [["slice"]] shortEnd :=
    .cons hslice (by decide +kernel) (.nil _)
  have hopens : HeadsDecipher shortStart [.text "JTpXdjSG 0"] [["FOOT_IOB", "0"]] shortEnd :=
    .cons hfooter (by decide +kernel) (.nil _)
  have hscanned : HeadsDecipher shortEnd [.text "1mx' 1", .text "JTpXdjSG 0"]
      ([["misc", "1"]] ++ [["FOOT_IOB", "0"]]) shortEnd :=
    .cons hmisc (by decide +kernel) hopens
  have hblank : wordsOf "" = [] := by decide +kernel
  exact .intro hblank hblank rfl hnames hscanned (by decide) (by decide)

/-- The reading of the file behind the table. -/
def afterTable (last : List Text.Line) (dump : Option Dump) : Reading :=
  endState (TileGrid.script.run (shortFile last dump))

theorem run_iff_trailerLines_short :
    TileGrid.script.run (shortFile [.text "end", .unreadable] none) =
        .ok shortGrid (afterTable [.text "end", .unreadable] none) ∧
      (∃ s', (script shortGrid.header).run (afterTable [.text "end", .unreadable] none) =
        .ok (short ["end"]) s' ∧ s'.keys = some shortEnd ∧ s'.lines = [.unreadable]) ∧
      ∃ e s', (script shortGrid.header).run { lines := [], keys := some shortStart } = .error e s' ∧
        s'.place.line ≤ 1 := by
  have hgrid : TileGrid.script.run (shortFile [.text "end", .unreadable] none) =
      .ok shortGrid (afterTable [.text "end", .unreadable] none) := by decide +kernel
  have hkeys : (afterTable [.text "end", .unreadable] none).keys = some shortStart := by
    decide +kernel
  have hlines : (afterTable [.text "end", .unreadable] none).lines =
      shortLines.tail ++ [.text "end", .unreadable] := by decide +kernel
  have hend : wordsOf "end" = ["end"] := by decide +kernel
  have hn : Script.numberAt Text.count? shortGrid.header 8 = some 1 := by decide +kernel
  obtain ⟨n, hn', hruns⟩ := run_iff_trailerLines hgrid
  obtain rfl : 1 = n := Option.some.inj (hn.symm.trans hn')
  refine ⟨hgrid, ?_, ?_⟩
  · obtain ⟨haccepts, -⟩ := hruns _ _ hkeys
    refine (haccepts _ _ _).2 ⟨shortEnd, rfl, ?_, by decide +kernel⟩
    rw [hlines, ← hend]
    exact trailerLines_short "end" [.unreadable]
  · -- no line is left, so no trailer begins
    obtain ⟨-, hrefuses⟩ := hruns { lines := [], keys := some shortStart } shortStart rfl
    obtain ⟨e, s', hrun, -, taken, htaken, hline⟩ := hrefuses fun _ _ _ h => nomatch h
    obtain ⟨rfl, -⟩ := List.append_eq_nil_iff.1 htaken.symm
    refine ⟨e, s', hrun, ?_⟩
    rcases hline with hline | ⟨-, hline⟩
    · exact hline.trans_le (by decide)
    · exact hline.le

/-- The lines of a trailer are refused if there is no room for them in the dump, and so are lines
whose last one is no text. -/
theorem trailerLines_refused :
    Script.numberAt Text.count? shortGrid.header 8 = some 1 ∧
      (∃ s s', TileGrid.script.run (shortFile [.text "end"] (some { limit := some 25 })) =
          .ok shortGrid s ∧ s.keys = some shortStart ∧
        TrailerLines 1 shortStart s.lines (short ["end"]) shortEnd [] ∧
        (script shortGrid.header).run s = .error (.io ⟨.shortWrite, .nothing⟩) s') ∧
      ∃ s s', TileGrid.script.run (shortFile [.unreadable] none) = .ok shortGrid s ∧
        s.keys = some shortStart ∧ s.lines = shortLines.tail ++ [.unreadable] ∧
        TrailerLines 1 shortStart (shortLines.tail ++ [.text ""]) (short []) shortEnd [] ∧
        (script shortGrid.header).run s = .error (.io ⟨.unreadableText, .nothing⟩) s' := by
  have hend : wordsOf "end" = ["end"] := by decide +kernel
  have hblank : wordsOf "" = [] := by decide +kernel
  refine ⟨by decide +kernel, ?_, ?_⟩
  · let s := afterTable [.text "end"] (some { limit := some 25 })
    have hlines : s.lines = shortLines.tail ++ [.text "end"] := by decide +kernel
    refine ⟨s, endState ((script shortGrid.header).run s), by decide +kernel, by decide +kernel, ?_,
      by decide +kernel⟩
    rw [hlines, ← hend]
    exact trailerLines_short "end" []
  · let s := afterTable [.unreadable] none
    refine ⟨s, endState ((script shortGrid.header).run s), by decide +kernel, by decide +kernel,
      by decide +kernel, ?_, by decide +kernel⟩
    rw [← hblank]
    exact trailerLines_short "" []

end Trailer

end ChipAtlas
