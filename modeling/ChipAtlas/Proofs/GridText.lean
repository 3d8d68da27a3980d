import ChipAtlas.Proofs.Form.File
import ChipAtlas.Proofs.Script.Attentive
import ChipAtlas.Proofs.Script.Shows
import ChipAtlas.Proofs.Text.Spacing

/-!
# Exported grids are no databases

A database has blank lines: two of them frame the primitive types at its end. An indented JSON text
has none, since a line feed inside a string is escaped and every other one stands behind a bracket
or a comma. So the tile grid that one job exports is never taken for a database by another.

* `Json.dense_indented` — the lines of a JSON text, by induction on the value;
* `exists_blank_of_decode` — the blank line of a database;
* `not_decode_tileGridText` — exported grids are refused.
-/

namespace ChipAtlas

open Stateful

namespace Text

/-! ### Texts without blank lines -/

/-- The text is one line, and it is not blank. -/
structure IsInk (text : String) : Prop where
  feed : '\n' ∉ text.toList
  ink : ∃ c ∈ text.toList, isBlank c = false

/-- No line of the text is blank. -/
inductive Dense : String → Prop
  | line {line : String} (h : IsInk line) : Dense line
  | cons {line rest : String} (h : IsInk line) (hrest : Dense rest) : Dense (line ++ "\n" ++ rest)

variable {front back text line : String}

theorem IsInk.append (h : IsInk front) (hback : '\n' ∉ back.toList) : IsInk (front ++ back) := by
  obtain ⟨c, hc, hblank⟩ := h.ink
  refine ⟨?_, c, ?_, hblank⟩
  · rw [String.toList_append, List.mem_append]
    exact fun hmem => hmem.elim h.feed hback
  · rw [String.toList_append]
    exact List.mem_append_left _ hc

theorem IsInk.of_append (hfront : '\n' ∉ front.toList) (h : IsInk back) :
    IsInk (front ++ back) := by
  obtain ⟨c, hc, hblank⟩ := h.ink
  refine ⟨?_, c, ?_, hblank⟩
  · rw [String.toList_append, List.mem_append]
    exact fun hmem => hmem.elim hfront h.feed
  · rw [String.toList_append]
    exact List.mem_append_right _ hc

/-- What stands in front of the first line is part of it. -/
theorem Dense.of_append (hfront : '\n' ∉ front.toList) (h : Dense back) :
    Dense (front ++ back) := by
  cases h with
  | line h => exact .line (.of_append hfront h)
  | @cons line rest h hrest =>
    rw [← String.append_assoc, ← String.append_assoc]
    exact .cons (.of_append hfront h) hrest

/-- What stands behind the last line is part of it. -/
theorem Dense.append (h : Dense front) (hback : '\n' ∉ back.toList) : Dense (front ++ back) := by
  induction h with
  | line h => exact .line (h.append hback)
  | cons h _ ih =>
    rw [String.append_assoc]
    exact .cons h ih

theorem Dense.lines (hfront : Dense front) (hback : Dense back) :
    Dense (front ++ "\n" ++ back) := by
  induction hfront with
  | line h => exact .cons h hback
  | @cons line rest h _ ih =>
    have heq : line ++ "\n" ++ rest ++ "\n" ++ back = line ++ "\n" ++ (rest ++ "\n" ++ back) := by
      simp only [String.append_assoc]
    rw [heq]
    exact .cons h ih

theorem wordsOf_ne_nil (h : IsInk line) : wordsOf line ≠ [] := by
  obtain ⟨c, hc, hblank⟩ := h.ink
  rw [wordsOf, Ne, List.map_eq_nil_iff, words_eq_nil_iff, List.all_eq_true]
  intro hall
  rw [hall c hc] at hblank
  exact Bool.noConfusion hblank

theorem utf8_append_lineFeed (line rest : String) :
    utf8 (line ++ "\n" ++ rest) = utf8 line ++ lineFeed :: utf8 rest := by
  simp only [utf8_eq_flatMap, String.toList_append, List.flatMap_append, List.append_assoc]
  rfl

/-- The lines that a text splits into are not blank either. -/
theorem Dense.wordsOf_ne_nil (h : Dense text) {raw : String}
    (hraw : .text raw ∈ linesOf (utf8 (text ++ "\n"))) : wordsOf raw ≠ [] := by
  induction h with
  | @line line h =>
    rw [← String.append_empty (s := line ++ "\n"), utf8_append_lineFeed,
      linesOf_append_lineFeed (lineFeed_not_mem_utf8 h.feed), Line.ofBytes_utf8] at hraw
    obtain rfl := Line.text.inj (List.mem_singleton.1 hraw)
    exact Text.wordsOf_ne_nil h
  | @cons line rest h _ ih =>
    rw [String.append_assoc, utf8_append_lineFeed,
      linesOf_append_lineFeed (lineFeed_not_mem_utf8 h.feed), Line.ofBytes_utf8] at hraw
    rcases List.mem_cons.1 hraw with heq | hmem
    · obtain rfl := Line.text.inj heq
      exact Text.wordsOf_ne_nil h
    · exact ih hmem

end Text

namespace Json

open Text

/-! ### The lines of a JSON text -/

theorem mem_toDigitsCore {base fuel n : Nat} {digits : List Char} {c : Char}
    (h : c ∈ Nat.toDigitsCore base fuel n digits) : c ∈ digits ∨ ∃ d, c = Nat.digitChar d := by
  induction fuel generalizing n digits with
  | zero => exact .inl h
  | succ fuel ih =>
    have hmore : c ∈ Nat.digitChar (n % base) :: digits → c ∈ digits ∨ ∃ d, c = Nat.digitChar d :=
      fun hmem => (List.mem_cons.1 hmem).elim (fun heq => .inr ⟨_, heq⟩) .inl
    rw [Nat.toDigitsCore] at h
    split at h
    next => exact hmore h
    next => exact (ih h).elim hmore .inr

theorem lineFeed_notMem_toDigits (base n : Nat) : '\n' ∉ Nat.toDigits base n := by
  intro hmem
  rcases mem_toDigitsCore hmem with hnil | ⟨d, hd⟩
  · exact List.not_mem_nil hnil
  · exact Nat.digitChar_ne '\n' (by decide) hd.symm

theorem lineFeed_notMem_hexPadded (width n : Nat) : '\n' ∉ (hexPadded width n).toList := by
  rw [hexPadded, String.toList_ofList, List.mem_append]
  rintro (hmem | hmem)
  · exact absurd (List.eq_of_mem_replicate hmem) (by decide)
  · exact lineFeed_notMem_toDigits _ _ hmem

/-- A line feed is escaped. -/
theorem lineFeed_notMem_escapedChar (c : Char) : '\n' ∉ (escapedChar c).toList := by
  unfold escapedChar
  split
  -- the characters with an escape of their own
  case h_8 c _ _ hfeed _ _ _ _ =>
    split_ifs
    · rw [String.toList_append, List.mem_append]
      rintro (hmem | hmem)
      · exact absurd hmem (by decide)
      · exact lineFeed_notMem_hexPadded _ _ hmem
    · rw [Char.toString_eq_singleton, String.toList_singleton, List.mem_singleton]
      exact fun heq => hfeed heq.symm
  all_goals decide

theorem isInk_quoted (s : String) : IsInk (quoted s) := by
  refine ⟨?_, '"', ?_, by decide +kernel⟩
  · simp only [quoted, String.toList_append, String.toList_join, List.mem_append, List.mem_flatMap,
      List.mem_map]
    rintro ((hmem | ⟨_, ⟨c, -, rfl⟩, hmem⟩) | hmem)
    · exact absurd hmem (by decide)
    · exact lineFeed_notMem_escapedChar c hmem
    · exact absurd hmem (by decide)
  · rw [quoted, String.append_assoc, String.toList_append]
    exact List.mem_append_left _ (by decide)

theorem isBlank_of_isDigit {c : Char} (h : c.isDigit) : isBlank c = false := by
  simp only [Char.isDigit, Bool.and_eq_true, decide_eq_true_eq, UInt32.le_iff_toNat_le] at h
  have hlow : 48 ≤ c.toNat := h.1
  have hhigh : c.toNat ≤ 57 := h.2
  unfold isBlank
  grind

theorem isInk_numeral (negative : Bool) (magnitude : UInt64) :
    IsInk (numeral negative magnitude) := by
  have hsign : '\n' ∉ (if negative then "-" else "").toList := by cases negative <;> decide
  refine .of_append hsign ⟨?_, ?_⟩
  · rw [Nat.toString_eq_repr, Nat.toList_repr]
    exact lineFeed_notMem_toDigits _ _
  · -- the first digit
    rw [Nat.toString_eq_repr, Nat.toList_repr]
    obtain ⟨c, hc⟩ := List.exists_mem_of_ne_nil _
      (Nat.toDigits_ne_nil (n := magnitude.toNat) (b := 10))
    refine ⟨c, hc, ?_⟩
    exact isBlank_of_isDigit (Nat.isDigit_of_mem_toDigits (by decide) (by decide) hc)

theorem isInk_flagText (value : Bool) : IsInk (flagText value) := by
  cases value
  · exact ⟨by decide, 'f', by decide, by decide +kernel⟩
  · exact ⟨by decide, 't', by decide, by decide +kernel⟩

theorem lineFeed_notMem_margin (level : Nat) : '\n' ∉ (margin level).toList := by
  rw [margin, String.toList_ofList]
  exact fun hmem => absurd (List.eq_of_mem_replicate hmem) (by decide)

/-- Parts with commas and line feeds between. -/
theorem dense_intercalate {parts : List String} (hne : parts ≠ [])
    (h : ∀ part ∈ parts, Dense part) : Dense (String.intercalate ",\n" parts) := by
  induction parts with
  | nil => exact absurd rfl hne
  | cons part parts ih =>
    obtain ⟨hpart, hparts⟩ := List.forall_mem_cons.1 h
    cases parts with
    | nil => rwa [String.intercalate_singleton]
    | cons next parts =>
      have hcomma : (",\n" : String) = "," ++ "\n" := rfl
      rw [String.intercalate_cons_cons, hcomma, ← String.append_assoc]
      exact (hpart.append (by decide)).lines (ih (List.cons_ne_nil _ _) hparts)

theorem dense_block {opening closing : String} (hopening : IsInk opening) (hclosing : IsInk closing)
    (level : Nat) {parts : List String} (h : ∀ part ∈ parts, Dense part) :
    Dense (block opening closing level parts) := by
  cases parts with
  | nil => exact .line (hopening.append hclosing.feed)
  | cons part parts =>
    have heq : block opening closing level (part :: parts) = opening ++ "\n" ++
        String.intercalate ",\n" ((part :: parts).map (margin (level + 1) ++ ·)) ++ "\n" ++
          (margin level ++ closing) := String.append_assoc ..
    rw [heq]
    refine (Dense.lines (.line hopening) (dense_intercalate (by simp) fun inner hinner => ?_)).lines
      (.line (.of_append (lineFeed_notMem_margin level) hclosing))
    obtain ⟨part, hpart, rfl⟩ := List.mem_map.1 hinner
    exact (h part hpart).of_append (lineFeed_notMem_margin _)

theorem isInk_bracket {c : Char} (h : c = '[' ∨ c = ']' ∨ c = '\x7b' ∨ c = '\x7d') :
    IsInk (String.ofList [c]) := by
  refine ⟨?_, c, ?_, ?_⟩
  · rcases h with rfl | rfl | rfl | rfl <;> decide
  · rw [String.toList_ofList]
    exact List.mem_singleton_self c
  · rcases h with rfl | rfl | rfl | rfl <;> decide +kernel

mutual

/-- **No line of a JSON text is blank.** -/
theorem dense_indented (level : Nat) : (v : Json) → Dense (indented level v)
  | number negative magnitude => by
    rw [indented]
    exact .line (isInk_numeral negative magnitude)
  | flag value => by
    rw [indented]
    exact .line (isInk_flagText value)
  | text value => by
    rw [indented]
    exact .line (isInk_quoted value)
  | list elements => by
    rw [indented]
    exact dense_block (isInk_bracket (.inl rfl)) (isInk_bracket (.inr (.inl rfl))) level
      (dense_indentedElements (level + 1) elements)
  | object members => by
    rw [indented]
    exact dense_block (isInk_bracket (.inr (.inr (.inl rfl))))
      (isInk_bracket (.inr (.inr (.inr rfl)))) level (dense_indentedMembers (level + 1) members)

theorem dense_indentedElements (level : Nat) :
    (elements : List Json) → ∀ part ∈ indentedElements level elements, Dense part
  | [] => by
    rw [indentedElements]
    exact fun _ hpart => absurd hpart List.not_mem_nil
  | v :: rest => by
    rw [indentedElements]
    exact List.forall_mem_cons.2 ⟨dense_indented level v, dense_indentedElements level rest⟩

theorem dense_indentedMembers (level : Nat) :
    (members : List (String × Json)) → ∀ part ∈ indentedMembers level members, Dense part
  | [] => by
    rw [indentedMembers]
    exact fun _ hpart => absurd hpart List.not_mem_nil
  | (name, v) :: rest => by
    rw [indentedMembers]
    have hname : '\n' ∉ (quoted name ++ ": ").toList :=
      ((isInk_quoted name).append (by decide)).feed
    exact List.forall_mem_cons.2
      ⟨(dense_indented level v).of_append hname, dense_indentedMembers level rest⟩

end

end Json

/-! ### The blank line of a database -/

namespace Reading

/-- A call takes at most one line. -/
theorem suffix_of_read {s s' : Reading} {call : Call} {fields : Record}
    (h : call.read s = .ok fields s') : s'.lines <:+ s.lines := by
  have hline {selection : Selection} (h : line selection s = .ok fields s') :
      s'.lines <:+ s.lines := tail_of_line h ▸ List.tail_suffix _
  cases call with
  | line selection record => exact hline h
  | plain text => exact hline h
  | blank =>
    obtain ⟨⟨⟩, s₁, hblank, hpure⟩ := exists_of_bind_eq_ok h
    obtain ⟨rfl, rfl⟩ := EStateM.Result.ok.inj hpure
    exact hline (blankLine_eq_ok.1 hblank)
  -- a key takes no line
  | setKey key =>
    obtain ⟨⟨⟩, s₁, hset, hpure⟩ := exists_of_bind_eq_ok h
    obtain ⟨rfl, rfl⟩ := EStateM.Result.ok.inj hpure
    obtain ⟨keys, -, rfl⟩ := setKey_eq_ok.1 hset
    exact List.suffix_refl _
  | setKeyStream keys =>
    obtain ⟨rfl, rfl⟩ := EStateM.Result.ok.inj h
    exact List.suffix_refl _

/-- A row that is shown has a blank line where it calls for one. -/
theorem Shows.exists_blank {s final : Reading} {row : List Call} (hs : s.Shows row final)
    (h : blankCall ∈ row) : ∃ raw, .text raw ∈ s.lines ∧ Text.wordsOf raw = [] := by
  induction row generalizing s with
  | nil => exact absurd h List.not_mem_nil
  | cons call row ih =>
    obtain ⟨s₁, hcall, hs⟩ := hs
    rcases List.mem_cons.1 h with rfl | h
    · obtain ⟨raw, rest, keys, hlines, hwords, -, -⟩ := line_eq_ok.1 hcall
      -- nothing is deciphered in it
      obtain ⟨hwords, -⟩ := EStateM.Result.ok.inj hwords
      exact ⟨raw, hlines ▸ List.mem_cons_self, hwords⟩
    · obtain ⟨raw, hraw, hblank⟩ := ih hs h
      exact ⟨raw, (suffix_of_read hcall).subset hraw, hblank⟩

end Reading

/-- A database has a blank line. -/
theorem exists_blank_of_decode {bytes : List UInt8} {dump : Option Dump} {db : Database}
    {s : Reading} (h : decode bytes dump = .ok db s) :
    ∃ raw, .text raw ∈ Text.linesOf bytes ∧ Text.wordsOf raw = [] := by
  obtain ⟨row, final, hwalk, hshows, -⟩ := Reading.exists_walk_of_run Database.attentive_script h
  obtain ⟨t, -, rfl⟩ := (FileText.accepts row [] db).1 hwalk
  refine hshows.exists_blank ?_
  have hblank : blankCall ∈ t.trailer.calls := List.mem_cons_self
  simp [FileText.calls, FileText.bodyCalls, hblank]

/-- **Exported grids are refused.** -/
theorem not_decode_tileGridText {db db' : Database} {layout : Variant} {text : String}
    (htext : db.tileGridText layout = .ok text) (dump : Option Dump) (s : Reading) :
    decode (Text.utf8 text) dump ≠ .ok db' s := by
  intro h
  obtain ⟨raw, hraw, hblank⟩ := exists_blank_of_decode h
  rw [Database.tileGridText] at htext
  cases hjson : db.grid.toJson layout with
  | error index =>
    rw [hjson] at htext
    exact nomatch htext
  | ok json =>
    rw [hjson] at htext
    obtain rfl := Except.ok.inj htext
    exact (Json.dense_indented 0 json).wordsOf_ne_nil hraw hblank

end ChipAtlas
