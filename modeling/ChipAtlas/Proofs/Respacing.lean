import ChipAtlas.Proofs.Consumption
import ChipAtlas.Proofs.Script.Works
import ChipAtlas.Proofs.Text.Spacing

/-!
# Spacing has no part in a reading

Two files that are written with the same records, line by line, are read alike: with the same
outcome, at the same place if it is a failure, and with the same dump and the same events. The
blanks in front of a line, behind it and between its fields, the kind of its end and the line feed
behind the last line make no difference.

A reading sees a line in two ways only. It takes the line as a record, and it looks whether the line
is blank. Both depend on the fields of the line alone, so two readings whose unread lines have the
same fields stay together, request by request (`Reading.SpacingBlind`).

* `Reading.spacingBlind_line`, `Reading.spacingBlind_peekBlank` — the two ways to see a line;
* `Reading.spacingBlind_scan` — a search is bounded by the number of the unread lines, and not by
  the lines;
* `decode_layout` — every file, in all of its layouts.
-/

namespace ChipAtlas

open Stateful
open Text (IsGap Layout Line Spaced linesOf utf8 wordsOf)

namespace Reading

/-- Other lines with the same fields lead to the same outcome, and what is left of them has the same
fields as what is left of the lines. -/
def SpacingBlindAt {α : Type} (m : Read α) (s : Reading) : Prop :=
  ∀ lines, List.Forall₂ Line.Alike s.lines lines →
    ∃ rest, List.Forall₂ Line.Alike (endState (m s)).lines rest ∧
      m (s.withLines lines) = mapState (·.withLines rest) (m s)

/-- A work that sees of the lines only their fields, whatever the reading is. -/
def SpacingBlind {α : Type} (m : Read α) : Prop := ∀ s, SpacingBlindAt m s

variable {α β : Type} {m : Read α} {f : α → Read β} {s : Reading}

/-- **Works one after the other.** -/
theorem SpacingBlind.bind (hm : SpacingBlind m) (hf : ∀ a, SpacingBlind (f a)) :
    SpacingBlind (m >>= f) := by
  intro s lines hlines
  obtain ⟨rest, hrest, hother⟩ := hm s lines hlines
  cases hms : m s with
  | error e s₁ =>
    rw [hms] at hrest hother
    rw [bind_of_error hms]
    exact ⟨rest, hrest, bind_of_error hother⟩
  | ok a s₁ =>
    rw [hms] at hrest hother
    rw [bind_of_ok hms]
    -- the second work begins with what the first one has left of the lines
    obtain ⟨rest', hrest', hother'⟩ := hf a s₁ rest hrest
    exact ⟨rest', hrest', (bind_of_ok hother).trans hother'⟩

/-! ### Single works -/

/-- Where the outcome of a work is the same for all lines, and the lines are left alone, the work
does not see them. -/
theorem spacingBlindAt_of_outcome (r : EStateM.Result Failure Reading α)
    (h : ∀ lines, m (s.withLines lines) = mapState (·.withLines lines) r) : SpacingBlindAt m s := by
  intro lines hlines
  have hself : m s = mapState (·.withLines s.lines) r := h s.lines
  refine ⟨lines, ?_, ?_⟩
  · rwa [hself, endState_mapState, withLines_lines]
  · rw [h, hself]
    cases r <;> rfl

theorem spacingBlind_setKey (key : String) : SpacingBlind (setKey key) := by
  refine fun s => spacingBlindAt_of_outcome (setKey key s) fun lines => ?_
  simp only [setKey]
  cases Cipher.KeyStream.create key 0 <;> rfl

/-- **A look at the next line** tells whether it has fields. -/
theorem spacingBlind_peekBlank : SpacingBlind peekBlank := by
  intro s lines hlines
  generalize hunread : s.lines = unread at hlines
  cases hlines with
  | nil =>
    have hother := peekBlank_nil (s := s.withLines []) rfl
    rw [hother, peekBlank_nil hunread]
    refine ⟨[], ?_, rfl⟩
    rw [endState, hunread]
    exact .nil
  | @cons first first' rest rest' hfirst hrest =>
    cases hfirst with
    | unreadable =>
      have hother := peekBlank_unreadable (s := s.withLines (.unreadable :: rest')) rfl
      rw [hother, peekBlank_unreadable hunread]
      exact ⟨rest', hrest, rfl⟩
    | @text raw raw' hraw =>
      have hother := peekBlank_text (s := s.withLines (.text raw' :: rest')) rfl
      rw [hother, peekBlank_text hunread, Text.isBlankLine_eq, Text.isBlankLine_eq, hraw]
      refine ⟨.text raw' :: rest', ?_, rfl⟩
      rw [endState, hunread]
      exact .cons (.text hraw) hrest

/-- **The next line** is read as its fields. -/
theorem spacingBlind_line (selection : Selection) : SpacingBlind (line selection) := by
  intro s lines hlines
  generalize hunread : s.lines = unread at hlines
  cases hlines with
  | nil =>
    have hother := line_nil (s := s.withLines []) rfl selection
    rw [hother, line_nil hunread]
    exact ⟨[], .nil, rfl⟩
  | @cons first first' rest rest' hfirst hrest =>
    cases hfirst with
    | unreadable =>
      have hother := line_unreadable (s := s.withLines (.unreadable :: rest')) rfl selection
      rw [hother, line_unreadable hunread]
      exact ⟨rest', hrest, rfl⟩
    | @text raw raw' hraw =>
      have hself := line_text hunread selection
      have hother := line_text (s := s.withLines (.text raw' :: rest')) rfl selection
      have hdeciphered : deciphered selection raw' = deciphered selection raw := by
        rw [deciphered, deciphered, hraw]
      cases hd : deciphered selection raw s.keys with
      | error cause keys =>
        simp only [hdeciphered, withLines_keys, hd] at hself hother
        rw [hself, hother]
        exact ⟨rest', hrest, rfl⟩
      | ok fields keys =>
        simp only [hdeciphered, withLines_keys, hd] at hself hother
        -- the same record goes into the same dump
        have hdump : (s.withLines (.text raw' :: rest')).dump = s.dump := rfl
        by_cases hcomplete : (emitTo s.dump fields).2 = true
        · rw [if_pos hcomplete] at hself
          rw [if_pos (hdump ▸ hcomplete)] at hother
          rw [hself, hother]
          exact ⟨rest', hrest, rfl⟩
        · rw [if_neg hcomplete] at hself
          rw [if_neg (hdump ▸ hcomplete)] at hother
          rw [hself, hother]
          exact ⟨rest', hrest, rfl⟩

/-- How many lines there are bounds a search, and not what they are. -/
theorem scanLines_congr (stop : Record → Bool) {lines lines' : List Line}
    (h : lines.length = lines'.length) (record : Nat) :
    scanLines stop lines record = scanLines stop lines' record := by
  induction lines generalizing lines' record with
  | nil =>
    obtain rfl := List.length_eq_zero_iff.1 h.symm
    rfl
  | cons first rest ih =>
    obtain ⟨first', rest', rfl⟩ := List.exists_cons_of_length_eq_add_one h.symm
    rw [scanLines, scanLines]
    simp only [ih (Nat.succ.inj h)]

theorem spacingBlind_scan (stop : Record → Bool)
    (h : ∀ lines record, SpacingBlind (scanLines stop lines record)) :
    SpacingBlind (scan stop) := by
  intro s lines hlines
  obtain ⟨rest, hrest, hother⟩ := h s.lines 0 s lines hlines
  refine ⟨rest, hrest, ?_⟩
  have hbound := scanLines_congr stop hlines.length_eq.symm 0
  exact (congrFun hbound (s.withLines lines)).trans hother

theorem compositional_spacingBlind : Compositional @SpacingBlind where
  pure a s := spacingBlindAt_of_outcome (.ok a s) fun _ => rfl
  bind := SpacingBlind.bind
  refuse cause s := spacingBlindAt_of_outcome (refuse cause s) fun _ => rfl
  breach index s := spacingBlindAt_of_outcome (.error (.breach index) s) fun _ => rfl
  line := spacingBlind_line
  peekBlank := spacingBlind_peekBlank
  scan := spacingBlind_scan
  enter part s := spacingBlindAt_of_outcome (enter part s) fun _ => rfl
  setRecord record s := spacingBlindAt_of_outcome (setRecord record s) fun _ => rfl
  setKey := spacingBlind_setKey
  note event s := spacingBlindAt_of_outcome (note event s) fun _ => rfl
  noteLines event s := spacingBlindAt_of_outcome (noteLines event s) fun _ => rfl

end Reading

/-! ### Files -/

/-- **Spacing has no part in a reading.** The layouts of some records are the files that split into
them, and all of them are read alike: with every dump, the database is the same, or the failure and
its place, and so are the dump and the events. Only the lines that are left over are those of the
one file or the other. -/
theorem decode_layout (records : List Record) :
    (∀ bytes, Layout records bytes ↔
      (linesOf bytes).map Line.fields? = records.map some) ∧
    ∀ bytes bytes' dump, Layout records bytes → Layout records bytes' →
      ∃ rest, decode bytes' dump = mapState (·.withLines rest) (decode bytes dump) := by
  refine ⟨fun bytes => Text.layout_iff, fun bytes bytes' dump h h' => ?_⟩
  have hblind := Reading.compositional_spacingBlind.run Database.script
  obtain ⟨rest, -, hother⟩ := hblind (.ofBytes bytes dump) (linesOf bytes') (h.alike h')
  exact ⟨rest, hother⟩

/-- A line with a wide blank in front of it and a carriage return behind it. -/
def spacedLine (line : String) : String := "\u3000" ++ line ++ "\t\r"

theorem wordsOf_spacedLine (line : String) : wordsOf (spacedLine line) = wordsOf line := by
  have hfront : IsGap ['\u3000'] := by decide +kernel
  have hbehind : IsGap ['\t', '\r'] := by decide +kernel
  have hline : Spaced (wordsOf line) line.toList := Text.spaced_iff.2 rfl
  have hspaced := (hline.gap_append hfront).append_gap hbehind
  rw [← Text.spaced_iff, spacedLine]
  simpa using hspaced

/-- The small file with such lines, of which the last lacks its line feed. -/
def spacedText : List UInt8 :=
  let w := endState (perform FileText.smallFile.calls {})
  utf8 (String.intercalate "\n" (w.lines.toList.map spacedLine))

theorem decode_layout_spacedText :
    ∃ records db s rest, Layout records smallText ∧ Layout records spacedText ∧
      decode smallText (some {}) = .ok db s ∧
      decode spacedText (some {}) = .ok db (s.withLines rest) := by
  obtain ⟨db, s, hdecode⟩ := exists_decode_smallText
  obtain ⟨trace, w, hperform⟩ := FileText.exists_perform_calls FileText.admissible_smallFile
    FileText.writable_smallFile
  obtain ⟨lines, hlines, hfeed, -⟩ := exists_lines_of_perform FileText.admissible_smallFile hperform
  have hlines : w.lines.toList = lines := hlines
  have hsmall : smallText = utf8 (String.join (lines.map (· ++ "\n"))) := by
    rw [smallText, hperform, endState, Writing.text, hlines]
  have hspaced : spacedText = utf8 (String.intercalate "\n" (lines.map spacedLine)) := by
    rw [spacedText, hperform, endState, hlines]
  -- both are layouts of the fields of the lines that were written
  have hlayout : Layout (lines.map wordsOf) smallText := by
    rw [hsmall]
    exact Text.layout_terminated hfeed
  have hlayout' : Layout (lines.map wordsOf) spacedText := by
    have hwords : (lines.map spacedLine).map wordsOf = lines.map wordsOf := by
      rw [List.map_map]
      exact List.map_congr_left fun line _ => wordsOf_spacedLine line
    rw [hspaced, ← hwords]
    refine Text.layout_intercalate fun l hl => ?_
    obtain ⟨line, hline, rfl⟩ := List.mem_map.1 hl
    simp [spacedLine, hfeed line hline]
  obtain ⟨rest, hother⟩ := (decode_layout (lines.map wordsOf)).2 smallText spacedText (some {})
    hlayout hlayout'
  rw [hdecode] at hother
  exact ⟨_, db, s, rest, hlayout, hlayout', hdecode, hother⟩

end ChipAtlas
