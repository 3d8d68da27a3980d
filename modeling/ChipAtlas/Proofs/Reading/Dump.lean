import ChipAtlas.Proofs.Cipher.Plaintext
import ChipAtlas.Proofs.Text.Lines

/-!
# The dump line by line

Every line that is read makes one line of the dump. A dump that was empty at first is therefore a
text of lines, with at most the cut line behind them that did not go in any more, and it is cut
between the lines where the reading is.

* `Dumps` — records go into a dump, each of them wholly;
* `exists_dumps_iff` — they do if there is room for them;
* `Dumps.exists_eq` — the bytes that this adds;
* `Dumps.eq_firstLines` — what goes in with the first records is the first lines of what goes in
  with all of them.
-/

namespace ChipAtlas

open Text (utf8 lineFeed)

/-- Records go into a dump one after the other, each of them as one whole line. -/
def Dumps : Option Dump → List Record → Option Dump → Prop
  | d, [], d' => d = d'
  | d, record :: records, d' =>
    (∀ f ∈ record, '\n' ∉ f.toList) ∧ (emitTo d record).2 = true ∧
      Dumps (emitTo d record).1 records d'

theorem Dumps.append {d d₁ d₂ : Option Dump} {records records' : List Record}
    (h : Dumps d records d₁) (h' : Dumps d₁ records' d₂) : Dumps d (records ++ records') d₂ := by
  induction records generalizing d with
  | nil =>
    obtain rfl : d = d₁ := h
    exact h'
  | cons record records ih => exact ⟨h.1, h.2.1, ih h.2.2⟩

/-- A record as a line of bytes. -/
def lineBytes (record : Record) : List UInt8 := utf8 (String.intercalate " " record)

theorem lineFeed_not_mem_lineBytes {record : Record} (h : ∀ f ∈ record, '\n' ∉ f.toList) :
    lineFeed ∉ lineBytes record :=
  Text.lineFeed_not_mem_utf8 (Text.lineFeed_not_mem_intercalate h)

theorem utf8_dumpLine (record : Record) :
    utf8 (dumpLine record) = lineBytes record ++ [lineFeed] := by
  rw [dumpLine, lineBytes, Text.utf8_eq_flatMap, Text.utf8_eq_flatMap, String.toList_append,
    List.flatMap_append]
  rfl

namespace Dump

variable {d : Dump}

/-- The sink holds no more than it can. -/
def Fits (d : Dump) : Prop := ∀ limit ∈ d.limit, d.bytes.size ≤ limit

/-- The sink with the first lines of what it holds. -/
def firstLines (n : Nat) (d : Dump) : Dump :=
  { d with bytes := (Text.firstLines n d.bytes.toList).toArray }

theorem fits_of_empty (h : d.bytes = #[]) : d.Fits := fun limit _ => by simp [h]

/-- A text that goes in wholly stands behind what there was. -/
theorem write_of_complete (d : Dump) (text : String) (h : (d.write text).2 = true) :
    (d.write text).1 = { d with bytes := d.bytes ++ (utf8 text).toArray } ∧
      (d.write text).1.Fits := by
  have hutf8 : (utf8 text).toArray = text.toUTF8.data := rfl
  rw [hutf8]
  unfold write at h ⊢
  cases hlimit : d.limit with
  | none => exact ⟨rfl, fun limit hmem => absurd hmem nofun⟩
  | some limit =>
    rw [hlimit] at h
    have hsize : (d.bytes ++ text.toUTF8.data).size ≤ limit := of_decide_eq_true h
    -- nothing was cut off
    have hbytes : (d.bytes ++ text.toUTF8.data).take limit = d.bytes ++ text.toUTF8.data :=
      Array.extract_eq_self_of_le hsize
    dsimp only
    rw [hbytes]
    refine ⟨rfl, fun limit' hmem => ?_⟩
    obtain rfl : limit = limit' := Option.some.inj hmem
    exact hsize

/-- Whatever of a text goes in stands behind what there was. -/
theorem exists_write_eq (h : d.Fits) (text : String) :
    ∃ more, (d.write text).1 = { d with bytes := d.bytes ++ more } := by
  unfold write
  -- without a limit all of the text goes in
  cases hlimit : d.limit with
  | none => exact ⟨text.toUTF8.data, rfl⟩
  | some limit =>
    -- what was there before is within the limit, so the cut is in the text
    refine ⟨text.toUTF8.data.extract 0 (limit - d.bytes.size), ?_⟩
    dsimp only
    rw [Array.take_eq_extract, Array.extract_append, Array.extract_eq_self_of_le (h limit hlimit),
      Nat.zero_sub]

end Dump

/-! ### Room in a dump -/

/-- The sink, if there is one and it is limited, has room for the lines of some records. -/
def HasRoom (dump : Option Dump) (records : List Record) : Prop :=
  ∀ d ∈ dump, ∀ limit ∈ d.limit,
    d.bytes.size + (records.flatMap fun record => utf8 (dumpLine record)).length ≤ limit

instance (dump : Option Dump) (records : List Record) : Decidable (HasRoom dump records) :=
  inferInstanceAs (Decidable (∀ d ∈ dump, ∀ limit ∈ d.limit, _))

theorem emitTo_complete_iff {dump : Option Dump} {record : Record} :
    (emitTo dump record).2 = true ↔ HasRoom dump [record] := by
  cases dump with
  | none => exact iff_of_true rfl nofun
  | some d =>
    rw [emitTo, Dump.write]
    cases hlimit : d.limit with
    | none => simp [HasRoom, hlimit]
    | some limit => simp [HasRoom, hlimit, Text.length_utf8]

/-- What is in the dump takes up room. -/
theorem hasRoom_emitTo {dump : Option Dump} {record : Record} {records : List Record}
    (h : (emitTo dump record).2 = true) :
    HasRoom (emitTo dump record).1 records ↔ HasRoom dump (record :: records) := by
  cases dump with
  | none => exact iff_of_true nofun nofun
  | some d =>
    obtain ⟨heq, -⟩ := d.write_of_complete (dumpLine record) h
    rw [emitTo, heq]
    simp [HasRoom, Nat.add_assoc]

/-- **Records go into a dump that has room for them.** -/
theorem exists_dumps_iff {dump : Option Dump} {records : List Record} (hne : records ≠ [])
    (hfeed : ∀ record ∈ records, ∀ f ∈ record, '\n' ∉ f.toList) :
    (∃ dump', Dumps dump records dump') ↔ HasRoom dump records := by
  induction records generalizing dump with
  | nil => exact absurd rfl hne
  | cons record records ih =>
    obtain ⟨hrecord, hrecords⟩ := List.forall_mem_cons.1 hfeed
    cases records with
    | nil =>
      refine ⟨fun ⟨_, _, hcomplete, _⟩ => emitTo_complete_iff.1 hcomplete, fun h => ?_⟩
      exact ⟨_, hrecord, emitTo_complete_iff.2 h, rfl⟩
    | cons next records =>
      have hrest (dump : Option Dump) : (∃ dump', Dumps dump (next :: records) dump') ↔
          HasRoom dump (next :: records) := ih (List.cons_ne_nil _ _) hrecords
      refine ⟨fun ⟨dump', _, hcomplete, h⟩ => ?_, fun h => ?_⟩
      · exact (hasRoom_emitTo hcomplete).1 ((hrest _).1 ⟨dump', h⟩)
      · -- there is room for the first record, and then for the others
        have hcomplete : (emitTo dump record).2 = true := by
          refine emitTo_complete_iff.2 fun d hd limit hlimit => ?_
          have hall := h d hd limit hlimit
          rw [List.flatMap_cons, List.length_append] at hall
          rw [List.flatMap_singleton]
          omega
        obtain ⟨dump', hdumps⟩ := (hrest _).2 ((hasRoom_emitTo hcomplete).2 h)
        exact ⟨dump', hrecord, hcomplete, hdumps⟩

/-! ### What a dump holds -/

variable {d : Dump} {dump dump' final : Option Dump} {records : List Record}

/-- **The bytes that records add.** -/
theorem Dumps.exists_eq (hfits : d.Fits) (h : Dumps (some d) records dump') :
    (∀ l ∈ records.map lineBytes, lineFeed ∉ l) ∧ ∃ d' : Dump, dump' = some d' ∧ d'.Fits ∧
      d'.limit = d.limit ∧
      d'.bytes.toList = d.bytes.toList ++ (records.map lineBytes).flatMap (· ++ [lineFeed]) := by
  induction records generalizing d with
  | nil => exact ⟨by simp, d, h.symm, hfits, rfl, by simp⟩
  | cons record records ih =>
    obtain ⟨hrecord, hcomplete, h⟩ := h
    -- the dump is no fuller than it may be, so the next record is treated alike
    obtain ⟨heq, hfits₁⟩ := d.write_of_complete (dumpLine record) hcomplete
    obtain ⟨hrecords, d', rfl, hfits', hlimit, hbytes⟩ := ih hfits₁ h
    rw [heq] at hlimit hbytes
    refine ⟨?_, d', rfl, hfits', hlimit, ?_⟩
    · rw [List.map_cons, List.forall_mem_cons]
      exact ⟨lineFeed_not_mem_lineBytes hrecord, hrecords⟩
    · rw [hbytes, Array.toList_append, utf8_dumpLine, List.map_cons, List.flatMap_cons,
        List.append_assoc]

theorem Dumps.eq_none (h : Dumps none records dump) : dump = none := by
  induction records with
  | nil => exact h.symm
  | cons record records ih => exact ih h.2.2

/-- **The first records are the first lines.** A dump that was empty before the records went in, and
into which a part of one more may have gone, holds in its first lines what it would hold after the
first records. -/
theorem Dumps.eq_firstLines (hempty : ∀ d ∈ dump, d.bytes = #[]) (h : Dumps dump records dump')
    (hfinal : final = dump' ∨ ∃ record, final = (emitTo dump' record).1) {k : Nat}
    (hk : k ≤ records.length) {cut : Option Dump} (hcut : Dumps dump (records.take k) cut) :
    cut = final.map (·.firstLines k) := by
  cases dump with
  | none =>
    obtain rfl := h.eq_none
    obtain rfl := hcut.eq_none
    -- without a dump there is nothing to compare
    rcases hfinal with rfl | ⟨record, rfl⟩ <;> rfl
  | some d =>
    have hd : d.bytes = #[] := hempty d rfl
    obtain ⟨hlines, d', rfl, hfits, hlimit, hbytes⟩ := h.exists_eq (Dump.fits_of_empty hd)
    obtain ⟨-, e, rfl, -, helimit, hebytes⟩ := hcut.exists_eq (Dump.fits_of_empty hd)
    -- what stands in the dump behind the records does not matter for its first lines
    obtain ⟨more, rfl⟩ : ∃ more, final = some { d' with bytes := d'.bytes ++ more } := by
      rcases hfinal with rfl | ⟨record, rfl⟩
      · exact ⟨#[], by rw [Array.append_empty]⟩
      · obtain ⟨more, hmore⟩ := Dump.exists_write_eq hfits (dumpLine record)
        exact ⟨more, congrArg some hmore⟩
    rw [hd, List.nil_append] at hbytes hebytes
    have hfirst : Text.firstLines k (d'.bytes ++ more).toList = e.bytes.toList := by
      rw [Array.toList_append, hbytes, hebytes, List.map_take]
      exact Text.firstLines_terminated_append hlines (by simpa using hk) more.toList
    change some e =
      some ⟨(Text.firstLines k (d'.bytes ++ more).toList).toArray, d'.limit⟩
    rw [hfirst, Array.toArray_toList, hlimit, ← helimit]

end ChipAtlas
