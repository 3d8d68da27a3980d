import ChipAtlas.Proofs.Text.Lines
import ChipAtlas.Proofs.Text.Words
import Mathlib.Data.List.Forall2

/-!
# How a file can be spaced

The same fields can be laid out in many ways: with any blanks in front of a line, behind it and
between its fields, with a line feed alone or a carriage return before it, and with or without a
line feed at the very end. The layouts of some records are described here without splitting
anything, and splitting a file gives the records that it is a layout of.

A carriage return needs no rule of its own. It is a blank, and in front of a line feed it is a blank
behind the line.

* `Spaced` — the ways to write the fields of one line, and `spaced_iff` — that they are the lines
  that split into these fields;
* `Layout` — the ways to write the records of a file, and `layout_iff` — that they are the files all
  of whose lines are text and split into these records;
* `Layout.alike` — two layouts of the same records have lines with the same fields.
-/

namespace ChipAtlas.Text

/-! ### One line -/

/-- A run of blanks, which may be empty. -/
def IsGap (gap : List Char) : Prop := ∀ c ∈ gap, isBlank c = true

instance (gap : List Char) : Decidable (IsGap gap) :=
  inferInstanceAs (Decidable (∀ c ∈ gap, isBlank c = true))

/-- A line that is written with the given fields. What stands behind a field begins with a blank, if
anything stands there, so that no two fields run into each other. -/
inductive Spaced : List String → List Char → Prop where
  | blank {gap : List Char} (hgap : IsGap gap) : Spaced [] gap
  | field {gap rest : List Char} {word : String} {fields : List String} (hgap : IsGap gap)
    (hword : IsWord word) (hrest : Spaced fields rest)
    (hend : ∀ c ∈ rest.head?, isBlank c = true) :
    Spaced (word :: fields) (gap ++ word.toList ++ rest)

variable {gap line : List Char} {fields : List String}

theorem words_gap_append (hgap : IsGap gap) (line : List Char) :
    words (gap ++ line) = words line := by
  induction gap with
  | nil => rfl
  | cons c gap ih =>
    have hc : isBlank c = true := hgap c List.mem_cons_self
    have ih := ih fun d hd => hgap d (List.mem_cons_of_mem c hd)
    -- a blank in front of a line opens no word
    rw [← ih]
    simp [words, addChar, hc]

/-- A word ends where a blank follows or nothing does. -/
theorem words_word_append {w : List Char} (hne : w ≠ []) (hw : ∀ c ∈ w, isBlank c = false)
    {rest : List Char} (hend : ∀ c ∈ rest.head?, isBlank c = true) :
    words (w ++ rest) = w :: words rest := by
  cases rest with
  | nil =>
    rw [List.append_nil, words_word hne hw]
    rfl
  | cons c rest =>
    have hc : isBlank c = true := hend c rfl
    rw [words_append_blank hne hw hc]
    simp [words, addChar, hc]

/-- A line splits into the fields that it is written with. -/
theorem Spaced.words_eq (h : Spaced fields line) : (words line).map String.ofList = fields := by
  induction h with
  | blank hgap =>
    rw [words_eq_nil_iff.2 (List.all_eq_true.2 hgap)]
    rfl
  | field hgap hword hrest hend ih =>
    rw [List.append_assoc, words_gap_append hgap,
      words_word_append hword.toList_ne_nil hword.2 hend, List.map_cons, ih, String.ofList_toList]

/-- Blanks in front of a line belong to its first gap. -/
theorem Spaced.gap_append (hgap : IsGap gap) (h : Spaced fields line) :
    Spaced fields (gap ++ line) := by
  have hgaps {gap' : List Char} (hgap' : IsGap gap') : IsGap (gap ++ gap') := fun c hc =>
    (List.mem_append.1 hc).elim (hgap c) (hgap' c)
  cases h with
  | blank hgap' => exact .blank (hgaps hgap')
  | field hgap' hword hrest hend =>
    rw [← List.append_assoc, ← List.append_assoc]
    exact .field (hgaps hgap') hword hrest hend

/-- Blanks behind a line belong to its last gap. -/
theorem Spaced.append_gap (h : Spaced fields line) (hgap : IsGap gap) :
    Spaced fields (line ++ gap) := by
  induction h with
  | blank hgap' =>
    exact .blank fun c hc => (List.mem_append.1 hc).elim (hgap' c) (hgap c)
  | @field gap' rest word fields hgap' hword hrest hend ih =>
    rw [List.append_assoc]
    refine .field hgap' hword ih fun c hc => ?_
    -- the rest begins as before, or it was empty and begins with the new gap
    cases rest with
    | nil => exact hgap c (List.mem_of_mem_head? hc)
    | cons d rest => exact hend c hc

/-- **Every line is spaced somehow.** Put in front of a line, a blank makes its first gap wider, and
another character opens a field or makes the first one longer. -/
theorem exists_spaced (line : List Char) : ∃ fields, Spaced fields line := by
  induction line with
  | nil => exact ⟨[], .blank nofun⟩
  | cons c line ih =>
    obtain ⟨fields, h⟩ := ih
    cases hc : isBlank c with
    | true =>
      have hgap : IsGap [c] := by simpa [IsGap] using hc
      exact ⟨fields, h.gap_append hgap⟩
    | false =>
      have hone : IsWord (String.ofList [c]) := by simp [IsWord, hc]
      by_cases hend : ∀ d ∈ line.head?, isBlank d = true
      · -- the character is a field of its own
        have hspaced : Spaced _ ([] ++ _ ++ line) := .field nofun hone h hend
        rw [String.toList_ofList] at hspaced
        exact ⟨_, hspaced⟩
      · -- the line begins with a field
        cases h with
        | blank hgap =>
          exact absurd (fun d hd => hgap d (List.mem_of_mem_head? hd)) hend
        | @field gap rest word fields hgap hword hrest hbehind =>
          cases gap with
          | cons b gap =>
            have hb : isBlank b = true := hgap b List.mem_cons_self
            exact absurd (by simpa using hb) hend
          | nil =>
            have hlonger : IsWord (String.ofList (c :: word.toList)) := by
              refine ⟨by simp, fun d hd => ?_⟩
              rw [String.toList_ofList] at hd
              rcases List.mem_cons.1 hd with rfl | hd
              · exact hc
              · exact hword.2 d hd
            have hspaced : Spaced _ ([] ++ _ ++ rest) := .field nofun hlonger hrest hbehind
            rw [String.toList_ofList] at hspaced
            exact ⟨_, hspaced⟩

/-- **A line is spaced as the fields that it splits into**, and in no other way. -/
theorem spaced_iff {line : String} : Spaced fields line.toList ↔ wordsOf line = fields := by
  refine ⟨Spaced.words_eq, ?_⟩
  rintro rfl
  obtain ⟨fields, h⟩ := exists_spaced line.toList
  have hfields : wordsOf line = fields := h.words_eq
  rwa [hfields]

/-! ### A file -/

/-- The fields of a line, if it is text. -/
def Line.fields? : Line → Option (List String)
  | .text line => some (wordsOf line)
  | .unreadable => none

/-- A file that is written with the given records, line by line. Behind the last line the line feed
may be missing, unless nothing else stands there. -/
inductive Layout : List (List String) → List UInt8 → Prop where
  | nil : Layout [] []
  | last {fields : List String} {line : String} (hspaced : Spaced fields line.toList)
    (hfeed : '\n' ∉ line.toList) (hne : line ≠ "") : Layout [fields] (utf8 line)
  | line {fields : List String} {line : String} {records : List (List String)}
    {bytes : List UInt8} (hspaced : Spaced fields line.toList) (hfeed : '\n' ∉ line.toList)
    (hrest : Layout records bytes) : Layout (fields :: records) (utf8 line ++ lineFeed :: bytes)

theorem utf8_ne_nil {text : String} (h : text ≠ "") : utf8 text ≠ [] := by
  intro hnil
  rw [utf8_eq_flatMap, List.flatMap_eq_nil_iff] at hnil
  -- every character is written as a byte at least
  obtain ⟨c, hc⟩ := List.exists_mem_of_ne_nil _ fun h' => h (String.toList_eq_nil_iff.1 h')
  exact String.utf8EncodeChar_ne_nil (hnil c hc)

theorem lineFeed_mem_utf8 {text : String} (h : '\n' ∈ text.toList) : lineFeed ∈ utf8 text := by
  rw [utf8_eq_flatMap]
  exact List.mem_flatMap.2 ⟨'\n', h, by decide⟩

/-- A readable line has the bytes that its text is written as. -/
theorem eq_utf8_of_ofBytes {bytes : List UInt8} {line : String}
    (h : Line.ofBytes bytes = .text line) : bytes = utf8 line := by
  rw [Line.ofBytes] at h
  split at h
  · next text htext =>
    obtain rfl := Line.text.inj h
    exact (utf8_of_fromUTF8? htext).symm
  · cases h

theorem splitLines_of_not_mem {bytes : List UInt8} (h : lineFeed ∉ bytes) (hne : bytes ≠ []) :
    splitLines bytes = [bytes] := by
  induction bytes with
  | nil => exact absurd rfl hne
  | cons b bytes ih =>
    have hb : b ≠ lineFeed := fun heq => h (heq ▸ List.mem_cons_self)
    rw [splitLines_cons]
    cases bytes with
    | nil => simp [addByte, hb]
    | cons b' bytes =>
      -- the byte is put in front of the only line
      rw [ih (fun hmem => h (List.mem_cons_of_mem b hmem)) (List.cons_ne_nil b' bytes)]
      simp [addByte, hb]

theorem linesOf_of_not_mem {bytes : List UInt8} (h : lineFeed ∉ bytes) (hne : bytes ≠ []) :
    linesOf bytes = [Line.ofBytes bytes] := by
  rw [linesOf, splitLines_of_not_mem h hne, List.map_singleton]

theorem linesOf_append_lineFeed {bytes : List UInt8} (h : lineFeed ∉ bytes) (rest : List UInt8) :
    linesOf (bytes ++ lineFeed :: rest) = Line.ofBytes bytes :: linesOf rest := by
  rw [linesOf, splitLines_append_lineFeed h, List.map_cons, linesOf]

/-- Only the empty file has no line. -/
theorem eq_nil_of_linesOf {bytes : List UInt8} (h : linesOf bytes = []) : bytes = [] := by
  refine Decidable.byContradiction fun hne => ?_
  by_cases hmem : lineFeed ∈ bytes
  · obtain ⟨first, rest, rfl, hfirst⟩ := List.eq_append_cons_of_mem hmem
    rw [linesOf_append_lineFeed hfirst] at h
    exact List.cons_ne_nil _ _ h
  · rw [linesOf_of_not_mem hmem hne] at h
    exact List.cons_ne_nil _ _ h

/-- A line of bytes with fields is text that is spaced as these fields. -/
theorem exists_spaced_of_fields? {bytes : List UInt8} {fields : List String}
    (h : lineFeed ∉ bytes) (hfields : (Line.ofBytes bytes).fields? = some fields) :
    ∃ line, bytes = utf8 line ∧ Spaced fields line.toList ∧ '\n' ∉ line.toList := by
  cases hline : Line.ofBytes bytes with
  | unreadable =>
    rw [hline] at hfields
    exact absurd hfields nofun
  | text line =>
    rw [hline] at hfields
    obtain rfl := eq_utf8_of_ofBytes hline
    have hspaced := spaced_iff.2 (Option.some.inj hfields)
    exact ⟨line, rfl, hspaced, fun hmem => h (lineFeed_mem_utf8 hmem)⟩

/-- A file splits into the records that it is a layout of. -/
theorem Layout.fields?_eq {records : List (List String)} {bytes : List UInt8}
    (h : Layout records bytes) : (linesOf bytes).map Line.fields? = records.map some := by
  induction h with
  | nil => rfl
  | last hspaced hfeed hne =>
    rw [linesOf_of_not_mem (lineFeed_not_mem_utf8 hfeed) (utf8_ne_nil hne), Line.ofBytes_utf8]
    simp [Line.fields?, spaced_iff.1 hspaced]
  | line hspaced hfeed hrest ih =>
    rw [linesOf_append_lineFeed (lineFeed_not_mem_utf8 hfeed), Line.ofBytes_utf8, List.map_cons,
      List.map_cons, ih]
    simp [Line.fields?, spaced_iff.1 hspaced]

/-- **A file is a layout of the records that it splits into**, if all of its lines are text, and of
no others. -/
theorem layout_iff {records : List (List String)} {bytes : List UInt8} :
    Layout records bytes ↔ (linesOf bytes).map Line.fields? = records.map some := by
  refine ⟨Layout.fields?_eq, fun h => ?_⟩
  induction records generalizing bytes with
  | nil =>
    obtain rfl := eq_nil_of_linesOf (List.map_eq_nil_iff.1 h)
    exact .nil
  | cons fields records ih =>
    by_cases hmem : lineFeed ∈ bytes
    · -- the first line feed ends the first line
      obtain ⟨first, rest, rfl, hfirst⟩ := List.eq_append_cons_of_mem hmem
      rw [linesOf_append_lineFeed hfirst, List.map_cons, List.map_cons, List.cons.injEq] at h
      obtain ⟨line, rfl, hspaced, hfeed⟩ := exists_spaced_of_fields? hfirst h.1
      exact .line hspaced hfeed (ih h.2)
    · -- there is no other line than the one without line feed
      have hne : bytes ≠ [] := by
        rintro rfl
        exact absurd h nofun
      rw [linesOf_of_not_mem hmem hne, List.map_singleton, List.map_cons, List.cons.injEq] at h
      obtain ⟨line, rfl, hspaced, hfeed⟩ := exists_spaced_of_fields? hmem h.1
      obtain rfl : records = [] := List.map_eq_nil_iff.1 h.2.symm
      exact .last hspaced hfeed fun hempty => hne (hempty ▸ rfl)

theorem layout_terminated {lines : List String} (h : ∀ l ∈ lines, '\n' ∉ l.toList) :
    Layout (lines.map wordsOf) (utf8 (String.join (lines.map (· ++ "\n")))) := by
  rw [layout_iff, linesOf_terminated h, List.map_map, List.map_map]
  rfl

/-- The line feed behind the last line may be left out. -/
theorem layout_intercalate {lines : List String}
    (h : ∀ l ∈ lines, '\n' ∉ l.toList ∧ l ≠ "") :
    Layout (lines.map wordsOf) (utf8 (String.intercalate "\n" lines)) := by
  induction lines with
  | nil =>
    rw [String.intercalate_nil]
    exact .nil
  | cons l lines ih =>
    obtain ⟨hfeed, hne⟩ := h l List.mem_cons_self
    have ih := ih fun l' hl' => h l' (List.mem_cons_of_mem l hl')
    cases lines with
    | nil =>
      rw [String.intercalate_singleton]
      exact .last (spaced_iff.2 rfl) hfeed hne
    | cons l' lines =>
      have hbytes : utf8 (String.intercalate "\n" (l :: l' :: lines)) =
          utf8 l ++ lineFeed :: utf8 (String.intercalate "\n" (l' :: lines)) := by
        rw [String.intercalate_cons_cons]
        simp only [utf8_eq_flatMap, String.toList_append, List.flatMap_append, List.append_assoc]
        rfl
      rw [hbytes]
      exact .line (spaced_iff.2 rfl) hfeed ih

/-- Two lines with the same fields, or of which neither can be read. -/
inductive Line.Alike : Line → Line → Prop where
  | text {raw raw' : String} (h : wordsOf raw = wordsOf raw') : Alike (.text raw) (.text raw')
  | unreadable : Alike .unreadable .unreadable

theorem Line.alike_of_fields? {line line' : Line} (h : line.fields? = line'.fields?) :
    line.Alike line' := by
  cases line with
  | text raw =>
    cases line' with
    | text raw' => exact .text (Option.some.inj h)
    | unreadable => exact absurd h nofun
  | unreadable =>
    cases line' with
    | text raw' => exact absurd h nofun
    | unreadable => exact .unreadable

/-- Two layouts of the same records have lines with the same fields. -/
theorem Layout.alike {records : List (List String)} {bytes bytes' : List UInt8}
    (h : Layout records bytes) (h' : Layout records bytes') :
    List.Forall₂ Line.Alike (linesOf bytes) (linesOf bytes') := by
  have hfields : (linesOf bytes).map Line.fields? = (linesOf bytes').map Line.fields? :=
    h.fields?_eq.trans h'.fields?_eq.symm
  rw [← List.forall₂_eq_eq_eq, List.forall₂_map_left_iff, List.forall₂_map_right_iff] at hfields
  exact hfields.imp fun _ _ => Line.alike_of_fields?

end ChipAtlas.Text
