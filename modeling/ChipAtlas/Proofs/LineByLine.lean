import ChipAtlas.Proofs.Consumption
import ChipAtlas.Proofs.Script.Requests

/-!
# The dump and the place of a violation, line by line

Decoding a file with a dump writes down what has been read: one line for each line of the file, with
the fields a blank apart and some of them deciphered. If the file violates the form, the violation
names a line, and the dump ends there: in front of the line if the line could not be read, and
behind it if it is what the line says that is wrong.

Both are read off the requests that decoding makes (`linesAsked`). Request by request the line
counter, the dump and the lines that are left move on together, so the records in the dump answer
the first requests, and the line of a violation is the last that was asked for or looked at.

* `DumpMirrors` — a dump with the first lines of a file;
* `ViolationMirrors` — the line of a violation, and the dump in front of it and behind it;
* `dumpMirrors_of_decode` — the dump of an accepted file, and the dump and the line of a violation.
-/

namespace ChipAtlas

open Text (linesOf utf8 wordsOf)
open Reading (Answers Refused Follows)

/-- The lines that are asked for when a file is decoded with a dump that is empty and has no
limit. -/
def linesAsked (bytes : List UInt8) : List LineRequest :=
  Database.script.requests (.ofBytes bytes (some {}))

/-- The dump holds records for the first lines of a file, and nothing else. -/
structure DumpMirrors (bytes : List UInt8) (s : Reading) (records : List Record) : Prop where
  /-- The lines of the file are asked for one after the other. -/
  asked : ∀ (i : Nat) (r : LineRequest), (linesAsked bytes)[i]? = some r →
    r.line = (linesOf bytes)[i]?
  /-- A record answers the request for the line in its place. -/
  answers : ∀ (i : Nat) (record : Record), records[i]? = some record →
    ∃ r, (linesAsked bytes)[i]? = some r ∧ r.answer? = some record
  /-- A record has the fields of its line, of which only those are changed that are asked to be
  deciphered. -/
  fields : ∀ (i : Nat) (record : Record), records[i]? = some record →
    ∃ r raw, (linesAsked bytes)[i]? = some r ∧ (linesOf bytes)[i]? = some (.text raw) ∧
      record.length = (wordsOf raw).length ∧
      ∀ j ∉ r.selection.indices (wordsOf raw).length, record[j]? = (wordsOf raw)[j]?
  /-- No field has a line feed. -/
  lineFeed : ∀ record ∈ records, ∀ f ∈ record, '\n' ∉ f.toList
  /-- Each record is one line of the dump, with its fields a blank apart. -/
  dump : ∃ d, s.dump = some d ∧
    d.bytes.toList = utf8 (String.join (records.map dumpLine)) ∧
    linesOf d.bytes.toList = records.map fun record => .text (String.intercalate " " record)

/-! ### Single requests -/

/-- Fields that are not selected stay as they are. -/
theorem getElem?_of_decipherFields {indices : List Nat} {fields out : Record}
    {keys keys' : Option Cipher.KeyStream} (h : decipherFields indices fields keys = .ok out keys')
    {j : Nat} (hj : j ∉ indices) : out[j]? = fields[j]? := by
  induction indices generalizing fields keys with
  | nil =>
    obtain ⟨rfl, -⟩ := EStateM.Result.ok.inj h
    rfl
  | cons i indices ih =>
    rw [List.mem_cons, not_or] at hj
    rw [decipherFields] at h
    split at h
    · exact absurd h Stateful.error_ne_ok
    · split at h
      · rw [ih h hj.2, List.getElem?_set_ne (Ne.symm hj.1)]
      · exact absurd h Stateful.error_ne_ok

/-- **What an answer is made of.** -/
theorem LineRequest.exists_of_answer? {r : LineRequest} {record : Record}
    (h : r.answer? = some record) :
    ∃ raw keys, r.line = some (.text raw) ∧
      Reading.deciphered r.selection raw r.keys = .ok record keys := by
  unfold answer? at h
  split at h
  · next raw hline =>
    split at h
    · next keys hd =>
      obtain rfl := Option.some.inj h
      exact ⟨raw, keys, hline, hd⟩
    · exact absurd h nofun
  · exact absurd h nofun
  · exact absurd h nofun

/-! ### The dump of the answered requests -/

namespace Reading.Answers

variable {s s₁ : Reading} {asked : List LineRequest} {records : List Record}

theorem length_eq (h : Answers s asked records s₁) : asked.length = records.length := by
  simpa using congrArg List.length h.answered

/-- The answers stand in the places of the requests. -/
theorem bind_answer? (h : Answers s asked records s₁) (i : Nat) :
    asked[i]?.bind LineRequest.answer? = records[i]? :=
  calc asked[i]?.bind LineRequest.answer?
      = (asked.map LineRequest.answer?)[i]?.bind id := by
        rw [List.getElem?_map, Option.bind_map, Function.id_comp]
    _ = (records.map some)[i]?.bind id := by rw [h.answered]
    _ = records[i]? := by
        rw [List.getElem?_map, Option.bind_map, Function.id_comp, Option.bind_fun_some]

/-- The lines that are asked for are those of the reading, one after the other. -/
theorem line_of_getElem? (h : Answers s asked records s₁) {i : Nat} {r : LineRequest}
    (hr : asked[i]? = some r) : r.line = s.lines[i]? := by
  have hlt : i < (asked.map LineRequest.line).length := by
    rw [List.length_map]
    exact (List.getElem?_eq_some_iff.1 hr).1
  have hi : (s.lines.map some)[i]? = some r.line := by
    rw [h.lines_eq, List.getElem?_append_left hlt, List.getElem?_map, hr]
    rfl
  rw [List.getElem?_map] at hi
  obtain ⟨l, hl, heq⟩ := Option.map_eq_some_iff.1 hi
  rw [hl, heq]

/-- What is left are the lines behind them. -/
theorem lines_eq_drop (h : Answers s asked records s₁) :
    s₁.lines = s.lines.drop asked.length := by
  have hlength : (asked.map LineRequest.line).length = asked.length := List.length_map _
  have hdrop : (s.lines.drop asked.length).map some = s₁.lines.map some := by
    rw [List.map_drop, h.lines_eq, List.drop_left' hlength]
  exact ((List.map_inj_right fun _ _ => Option.some.inj).1 hdrop).symm

/-- The next line is the one behind them. -/
theorem head?_eq (h : Answers s asked records s₁) : s₁.lines.head? = s.lines[asked.length]? := by
  rw [h.lines_eq_drop, List.head?_drop]

/-- One more request is for the line behind those that have been read. -/
theorem line_of_getElem?_concat (h : Answers s asked records s₁) {selection : Selection} {i : Nat}
    {r : LineRequest} (hr : (asked ++ [s₁.request selection])[i]? = some r) :
    r.line = s.lines[i]? := by
  rcases Nat.lt_trichotomy i asked.length with hlt | rfl | hgt
  · rw [List.getElem?_append_left hlt] at hr
    exact h.line_of_getElem? hr
  · rw [List.getElem?_concat_length] at hr
    obtain rfl := Option.some.inj hr
    exact h.head?_eq
  · have hle : (asked ++ [s₁.request selection]).length ≤ i := by
      rw [List.length_append]
      exact hgt
    rw [List.getElem?_eq_none hle] at hr
    exact absurd hr (Option.some_ne_none r).symm

theorem length_lines (h : Answers s asked records s₁) :
    s.lines.length = asked.length + s₁.lines.length := by
  simpa using congrArg List.length h.lines_eq

/-- The records before a place and the one in this place, where the requests end. -/
theorem records_eq (h : Answers s asked records s₁) {n : Nat} (hn : records.length ≤ n + 1) :
    records = records.take n ++ (asked[n]?.bind LineRequest.answer?).toList := by
  rw [h.bind_answer?, ← List.take_add_one, List.take_of_length_le hn]

end Reading.Answers

variable {bytes : List UInt8} {s s₁ : Reading} {asked : List LineRequest} {records : List Record}

/-- Requests that are answered, and at most one that is not, leave a dump that mirrors the lines. -/
theorem dumpMirrors_of_answers (h : Answers (.ofBytes bytes (some {})) asked records s₁)
    (hasked : linesAsked bytes = asked ∨
      ∃ selection, linesAsked bytes = asked ++ [s₁.request selection])
    (hdump : s.dump = s₁.dump) : DumpMirrors bytes s records := by
  -- the requests that are answered come first
  have hfirst : ∀ (i : Nat) (r : LineRequest), asked[i]? = some r →
      (linesAsked bytes)[i]? = some r := by
    intro i r hr
    rcases hasked with heq | ⟨selection, heq⟩
    · rw [heq, hr]
    · rw [heq, List.getElem?_append_left (List.getElem?_eq_some_iff.1 hr).1, hr]
  have hanswer : ∀ (i : Nat) (record : Record), records[i]? = some record →
      ∃ r, asked[i]? = some r ∧ r.answer? = some record := by
    intro i record hrecord
    rw [← h.bind_answer?] at hrecord
    exact Option.bind_eq_some_iff.1 hrecord
  obtain ⟨hlines, d, hd, -, -, hbytes⟩ := h.dumps.exists_eq (Dump.fits_of_empty rfl)
  refine ⟨fun i r hr => ?_, fun i record hrecord => ?_, fun i record hrecord => ?_,
    fun record hrecord => ?_, d, hdump.trans hd, ?_, ?_⟩
  · rcases hasked with heq | ⟨selection, heq⟩
    · exact h.line_of_getElem? (heq ▸ hr)
    · exact h.line_of_getElem?_concat (heq ▸ hr)
  · obtain ⟨r, hr, hrecord⟩ := hanswer i record hrecord
    exact ⟨r, hfirst i r hr, hrecord⟩
  · obtain ⟨r, hr, hrecord⟩ := hanswer i record hrecord
    obtain ⟨raw, keys, hline, hd⟩ := LineRequest.exists_of_answer? hrecord
    exact ⟨r, raw, hfirst i r hr, (h.line_of_getElem? hr).symm.trans hline,
      Reading.length_of_decipherFields hd, fun j hj => getElem?_of_decipherFields hd hj⟩
  · obtain ⟨i, hi⟩ := List.mem_iff_getElem?.1 hrecord
    obtain ⟨r, -, hanswer⟩ := hanswer i record hi
    obtain ⟨raw, keys, -, hd⟩ := LineRequest.exists_of_answer? hanswer
    exact lineFeed_not_mem_of_deciphered hd
  · rw [hbytes, show records.map dumpLine = (records.map (String.intercalate " ")).map (· ++ "\n")
      by rw [List.map_map]; rfl, Text.utf8_terminated, List.map_map]
    rfl
  · -- no record has a line feed, so the dump is split where its lines were joined
    have hsplit : Text.splitLines d.bytes.toList = records.map lineBytes :=
      hbytes ▸ Text.splitLines_terminated hlines
    rw [linesOf, hsplit, List.map_map]
    exact List.map_congr_left fun record _ => Text.Line.ofBytes_utf8 _

/-! ### Outcomes -/

/-- Decoding a file asks for a line before anything is checked. -/
theorem linesAsked_ne_nil (bytes : List UInt8) : linesAsked bytes ≠ [] := by
  obtain ⟨next, hscript⟩ : ∃ next : Record → Script Database,
      Database.script = .enter .header (.line (.only []) next) := ⟨_, rfl⟩
  rw [linesAsked, hscript]
  exact List.cons_ne_nil _ _

/-- The line of a violation and the dump in front of it and behind it. -/
structure ViolationMirrors (bytes : List UInt8) (v : Violation) (s : Reading) : Prop where
  one_le : 1 ≤ v.place.line
  le_length : v.place.line ≤ (linesOf bytes).length + 1
  unexpectedEnd_iff : v.place.line = (linesOf bytes).length + 1 ↔ v.cause = .unexpectedEnd
  /-- The dump has the lines before the line of the violation, and then this line if it was asked
  for and answered. -/
  dump : ∃ before : List Record, before.length = v.place.line - 1 ∧ DumpMirrors bytes s
    (before ++ ((linesAsked bytes)[v.place.line - 1]?.bind LineRequest.answer?).toList)

/-- Wherever a violation is found, its line and the dump fit together. -/
theorem violationMirrors_of_refused {v : Violation}
    (h : Refused (.ofBytes bytes (some {})) (linesAsked bytes) records v s) :
    ViolationMirrors bytes v s := by
  have hne := linesAsked_ne_nil bytes
  generalize hasked : linesAsked bytes = asked at h hne
  cases h with
  | check hanswers hline hcause =>
    -- the line of the violation is the last one that has been read
    have hplace : v.place.line = asked.length :=
      hline.trans (hanswers.line_eq.trans (Nat.zero_add _))
    have hpos : 0 < asked.length := List.length_pos_iff.2 hne
    have hlines : (linesOf bytes).length = asked.length + s.lines.length := hanswers.length_lines
    have hlength := hanswers.length_eq
    have hrecords := hanswers.records_eq (n := v.place.line - 1) (by omega)
    refine ⟨by omega, by omega, iff_of_false (by omega) hcause, records.take (v.place.line - 1),
      ?_, ?_⟩
    · rw [List.length_take]
      omega
    · rw [hasked, ← hrecords]
      exact dumpMirrors_of_answers hanswers (.inl hasked) rfl
  | @line asked _ _ s₁ _ hanswers selection hnone hline hcause hdump =>
    -- the line of the violation is the one that could not be read
    have hplace : v.place.line = asked.length + 1 := by
      rw [hline, hanswers.line_eq]
      exact congrArg (· + 1) (Nat.zero_add _)
    have hlines : (linesOf bytes).length = asked.length + s₁.lines.length := hanswers.length_lines
    have hlast : ((asked ++ [s₁.request selection])[asked.length]?.bind LineRequest.answer?) =
        none := by
      rw [List.getElem?_concat_length, Option.bind_some, hnone]
    refine ⟨by omega, by omega, ?_, records, ?_, ?_⟩
    · rw [hcause, ← List.length_eq_zero_iff]
      omega
    · rw [hplace, Nat.add_sub_cancel, hanswers.length_eq]
    · rw [hplace, Nat.add_sub_cancel, hasked, hlast, Option.toList_none, List.append_nil]
      exact dumpMirrors_of_answers hanswers (.inr ⟨selection, hasked⟩) hdump
  | @look _ _ _ s₁ _ hanswers hnil hline hcause hdump =>
    -- no line is left, and none is asked for
    have hplace : v.place.line = asked.length + 1 := by
      rw [hline, hanswers.line_eq]
      exact congrArg (· + 1) (Nat.zero_add _)
    have hlines : (linesOf bytes).length = asked.length + s₁.lines.length := hanswers.length_lines
    rw [hnil, List.length_nil, Nat.add_zero] at hlines
    refine ⟨by omega, by omega, iff_of_true (by omega) hcause, records, ?_, ?_⟩
    · rw [hplace, Nat.add_sub_cancel, hanswers.length_eq]
    · rw [hplace, Nat.add_sub_cancel, hasked, List.getElem?_length, Option.bind_none,
        Option.toList_none, List.append_nil]
      exact dumpMirrors_of_answers hanswers (.inl hasked) hdump

/-- **Line by line.** The dump of an accepted file has one line for each line that was consumed,
with the fields of the line a blank apart, of which only those are changed that the form has
deciphered. A violation names a line of the file, or the one behind the last line if the file ends
too early; the dump has the lines before it, and the line itself if it could be read. -/
theorem dumpMirrors_of_decode (bytes : List UInt8) :
    (∀ db s, decode bytes (some {}) = .ok db s → ∃ records,
      (linesAsked bytes).length = records.length ∧ s.place.line = records.length ∧
        s.lines = (linesOf bytes).drop records.length ∧ DumpMirrors bytes s records) ∧
    ∀ v s, decode bytes (some {}) = .error (.violation v) s → ViolationMirrors bytes v s := by
  have hfollows := Reading.follows_run Database.attentive_script (.ofBytes bytes (some {}))
  refine ⟨fun db s h => ?_, fun v s h => ?_⟩
  · rw [decode] at h
    rw [h] at hfollows
    obtain ⟨records, hanswers⟩ := hfollows
    have hlength := hanswers.length_eq
    refine ⟨records, hlength, ?_, ?_, dumpMirrors_of_answers hanswers (.inl rfl) rfl⟩
    · rw [hanswers.line_eq, hlength]
      exact Nat.zero_add _
    · rw [hanswers.lines_eq_drop, hlength]
      rfl
  · rw [decode] at h
    rw [h] at hfollows
    obtain ⟨records, hrefused⟩ := hfollows
    exact violationMirrors_of_refused hrefused

/-- The violation with which decoding ends, and the reading that it leaves behind. -/
def violation? : EStateM.Result Failure Reading Database → Option (Violation × Reading)
  | .error (.violation v) s => some (v, s)
  | _ => none

theorem violation?_eq_some {r : EStateM.Result Failure Reading Database} {v : Violation} :
    violation? r = some (v, s) ↔ r = .error (.violation v) s := by
  fun_cases violation? r with
  | case1 v' s' => simp
  | case2 _ hother => exact iff_of_false (Option.some_ne_none _).symm (hother v s)

/-- A file whose second line does not count the architectures. -/
def brokenText : List UInt8 := utf8 "chip database\nmagic ph1_100 x\n"

theorem dumpMirrors_of_decode_brokenText :
    (∃ db s, decode smallText (some {}) = .ok db s ∧
      ∃ records, s.place.line = records.length ∧ DumpMirrors smallText s records) ∧
    ∃ v s, decode brokenText (some {}) = .error (.violation v) s ∧
      v.place.line = 2 ∧ v.cause = .badNumber 2 "x" ∧
      s.dump.map (·.bytes.toList) = some brokenText ∧ ViolationMirrors brokenText v s := by
  obtain ⟨db, s, hdecode⟩ := exists_decode_smallText
  obtain ⟨records, -, hline, -, hmirrors⟩ := (dumpMirrors_of_decode smallText).1 db s hdecode
  refine ⟨⟨db, s, hdecode, records, hline, hmirrors⟩, ?_⟩
  have houtcome : (violation? (decode brokenText (some {}))).map
      (fun e => (e.1.place.line, e.1.cause, e.2.dump.map (·.bytes.toList))) =
        some (2, .badNumber 2 "x", some brokenText) := by decide +kernel
  obtain ⟨⟨v, s⟩, hfound, houtcome⟩ := Option.map_eq_some_iff.1 houtcome
  simp only [Prod.mk.injEq] at houtcome
  obtain ⟨hplace, hcause, hdump⟩ := houtcome
  have hviolation := violation?_eq_some.1 hfound
  have hmirrors := (dumpMirrors_of_decode brokenText).2 v s hviolation
  exact ⟨v, s, hviolation, hplace, hcause, hdump, hmirrors⟩

end ChipAtlas
