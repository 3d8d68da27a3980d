import ChipAtlas.Text.Lines
import Mathlib.Tactic.SplitIfs

/-!
# Lines that are written and split again

A text of lines, each with a line feed behind it, splits into exactly these lines. The point is that
UTF-8 writes the byte of a line feed for no character but the line feed itself, so splitting the
bytes and splitting the text come to the same.

* `splitLines_terminated` — byte lines with line feeds behind them are split where they were joined;
* `linesOf_terminated` — the same for lines of text, through UTF-8;
* `firstLines` — a file that is cut behind some lines, and `linesOf_firstLines` — that its lines are
  the first lines of the file.
-/

namespace ChipAtlas.Text

/-- A text as bytes. -/
def utf8 (text : String) : List UInt8 := text.toUTF8.data.toList

theorem length_utf8 (text : String) : (utf8 text).length = text.utf8ByteSize := rfl

theorem utf8_eq_flatMap (text : String) :
    utf8 text = text.toList.flatMap String.utf8EncodeChar := by
  rw [utf8, String.toUTF8, ← String.utf8Encode_toList]
  simp [List.utf8Encode]

/-- Only the line feed is written with the byte of a line feed: the bytes of a longer sequence are
all above the ASCII range. -/
theorem lineFeed_not_mem_utf8EncodeChar {c : Char} (h : c ≠ '\n') :
    lineFeed ∉ String.utf8EncodeChar c := by
  intro hmem
  have hval : c.val.toNat ≠ 10 := fun h10 => h (Char.ext (UInt32.toNat.inj h10))
  -- what it means for a byte of the sequence to be the line feed's, in numbers
  have key : ∀ n : Nat, lineFeed = UInt8.ofNat n ↔ 10 = n % 256 := fun n => by
    rw [lineFeed, ← UInt8.toNat_inj, UInt8.toNat_ofNat']
    rfl
  unfold String.utf8EncodeChar at hmem
  dsimp only at hmem
  -- each form of the sequence is looked at, byte by byte
  split_ifs at hmem <;>
    simp only [List.mem_cons, List.not_mem_nil, or_false, key] at hmem <;> omega

theorem lineFeed_not_mem_utf8 {text : String} (h : '\n' ∉ text.toList) : lineFeed ∉ utf8 text := by
  rw [utf8_eq_flatMap]
  intro hmem
  obtain ⟨c, hc, hb⟩ := List.mem_flatMap.1 hmem
  exact lineFeed_not_mem_utf8EncodeChar (fun heq => h (heq ▸ hc)) hb

theorem fromUTF8?_utf8 (text : String) : String.fromUTF8? ⟨(utf8 text).toArray⟩ = some text := by
  have harray : (⟨(utf8 text).toArray⟩ : ByteArray) = text.toUTF8 := by simp [utf8]
  rw [harray, String.fromUTF8?]
  exact dif_pos text.isValidUTF8

theorem utf8_of_fromUTF8? {bytes : List UInt8} {text : String}
    (h : String.fromUTF8? ⟨bytes.toArray⟩ = some text) : utf8 text = bytes := by
  rw [String.fromUTF8?] at h
  split at h
  next hvalid =>
    obtain rfl := Option.some.inj h
    rfl
  next => exact nomatch h

@[simp] theorem Line.ofBytes_utf8 (text : String) : Line.ofBytes (utf8 text) = .text text := by
  rw [Line.ofBytes, fromUTF8?_utf8]

/-! ### Splitting what was joined -/

/-- The first line feed ends the first line. -/
theorem splitLines_append_lineFeed {line : List UInt8} (h : lineFeed ∉ line) (rest : List UInt8) :
    splitLines (line ++ lineFeed :: rest) = line :: splitLines rest := by
  induction line with
  | nil => simp [splitLines_cons, addByte]
  | cons b line ih =>
    have hb : b ≠ lineFeed := fun heq => h (heq ▸ List.mem_cons_self)
    have ih := ih fun hmem => h (List.mem_cons_of_mem _ hmem)
    -- the byte is put in front of the first line
    rw [List.cons_append, splitLines_cons, ih, addByte, if_neg hb]

/-- Lines with line feeds behind them are split off in front of whatever follows. -/
theorem splitLines_terminated_append {lines : List (List UInt8)} (h : ∀ l ∈ lines, lineFeed ∉ l)
    (rest : List UInt8) :
    splitLines (lines.flatMap (· ++ [lineFeed]) ++ rest) = lines ++ splitLines rest := by
  induction lines with
  | nil => rfl
  | cons l lines ih =>
    have ih := ih fun l' hl' => h l' (List.mem_cons_of_mem _ hl')
    rw [List.flatMap_cons, List.append_assoc, List.append_assoc, List.singleton_append,
      splitLines_append_lineFeed (h l List.mem_cons_self), ih, List.cons_append]

/-- **Byte lines are split where they were joined.** -/
theorem splitLines_terminated {lines : List (List UInt8)} (h : ∀ l ∈ lines, lineFeed ∉ l) :
    splitLines (lines.flatMap (· ++ [lineFeed])) = lines := by
  -- nothing stands behind the last line
  have := splitLines_terminated_append h []
  rwa [List.append_nil, splitLines_nil, List.append_nil] at this

theorem utf8_terminated (lines : List String) :
    utf8 (String.join (lines.map (· ++ "\n"))) = (lines.map utf8).flatMap (· ++ [lineFeed]) := by
  simp only [utf8_eq_flatMap, String.toList_join, List.flatMap_map, List.flatMap_assoc,
    String.toList_append, List.flatMap_append]
  rfl

/-- **Lines of text are split where they were joined.** -/
theorem linesOf_terminated {lines : List String} (h : ∀ l ∈ lines, '\n' ∉ l.toList) :
    linesOf (utf8 (String.join (lines.map (· ++ "\n")))) = lines.map .text := by
  -- a line of text without line feed is a line of bytes without its byte
  have hbytes : ∀ l ∈ lines.map utf8, lineFeed ∉ l := by
    intro l hl
    obtain ⟨line, hline, rfl⟩ := List.mem_map.1 hl
    exact lineFeed_not_mem_utf8 (h line hline)
  rw [linesOf, utf8_terminated, splitLines_terminated hbytes, List.map_map]
  exact List.map_congr_left fun line _ => Line.ofBytes_utf8 line

/-! ### Cutting a file -/

/-- The first lines of a file, with the line feeds that end them. -/
def firstLines : Nat → List UInt8 → List UInt8
  | 0, _ => []
  | _ + 1, [] => []
  | n + 1, b :: bytes => b :: firstLines (if b = lineFeed then n else n + 1) bytes

@[simp] theorem firstLines_zero (bytes : List UInt8) : firstLines 0 bytes = [] := by
  rw [firstLines]

theorem splitLines_firstLines (n : Nat) (bytes : List UInt8) :
    splitLines (firstLines n bytes) = (splitLines bytes).take n := by
  induction bytes generalizing n with
  | nil => cases n <;> simp [firstLines]
  | cons b bytes ih =>
    cases n with
    | zero => simp
    | succ n =>
      rw [firstLines, splitLines_cons, splitLines_cons, ih]
      -- a line feed ends a line on both sides; another byte belongs to the line behind it
      by_cases hb : b = lineFeed
      · simp only [addByte, if_pos hb, List.take_succ_cons]
      · cases splitLines bytes <;> simp [addByte, hb]

/-- **The lines of a cut file** are the first lines of the file. -/
theorem linesOf_firstLines (n : Nat) (bytes : List UInt8) :
    linesOf (firstLines n bytes) = (linesOf bytes).take n := by
  rw [linesOf, splitLines_firstLines, linesOf, List.map_take]

/-- The first line feed ends the first line. -/
theorem firstLines_append_lineFeed {line : List UInt8} (h : lineFeed ∉ line) (n : Nat)
    (rest : List UInt8) :
    firstLines (n + 1) (line ++ lineFeed :: rest) = line ++ lineFeed :: firstLines n rest := by
  induction line with
  | nil => simp [firstLines]
  | cons b line ih =>
    have hb : b ≠ lineFeed := fun heq => h (heq ▸ List.mem_cons_self)
    -- no line ends before the line feed, so nothing is counted
    rw [List.cons_append, firstLines, if_neg hb, ih fun hmem => h (List.mem_cons_of_mem _ hmem),
      List.cons_append]

/-- A file of terminated lines, with anything behind them, is cut between the lines. -/
theorem firstLines_terminated_append {lines : List (List UInt8)} (h : ∀ l ∈ lines, lineFeed ∉ l)
    {n : Nat} (hn : n ≤ lines.length) (rest : List UInt8) :
    firstLines n (lines.flatMap (· ++ [lineFeed]) ++ rest) =
      (lines.take n).flatMap (· ++ [lineFeed]) := by
  induction lines generalizing n with
  | nil =>
    obtain rfl := Nat.le_zero.1 hn
    simp
  | cons l lines ih =>
    cases n with
    | zero => simp
    | succ n =>
      -- the first line is kept, and one less is to be kept of the others
      have ih := ih (fun l' hl' => h l' (List.mem_cons_of_mem _ hl')) (Nat.le_of_succ_le_succ hn)
      rw [List.take_succ_cons, List.flatMap_cons, List.flatMap_cons, List.append_assoc,
        List.append_assoc, List.singleton_append,
        firstLines_append_lineFeed (h l List.mem_cons_self), ih, List.append_assoc,
        List.singleton_append]

end ChipAtlas.Text
