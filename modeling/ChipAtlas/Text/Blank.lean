/-!
# Blank characters and the words of a line

A line of a chip database is a row of words with blanks between, before and after them. A blank is
any character with the Unicode property `White_Space`; a carriage return is one of them, so line
ends in either common convention leave the words of a line as they are.

* `isBlank` — membership in `White_Space`;
* `words` — the maximal blank-free runs of a line, in order;
* `blank_not_mem_words` — no word holds a blank, and `ne_nil_of_mem_words` — no word is empty.
-/

namespace ChipAtlas.Text

/-- Membership in the Unicode property `White_Space`. -/
@[irreducible] def isBlank (c : Char) : Bool :=
  let n := c.toNat
  (0x09 ≤ n && n ≤ 0x0D) || n == 0x20 || n == 0x85 || n == 0xA0 || n == 0x1680 ||
    (0x2000 ≤ n && n ≤ 0x200A) || n == 0x2028 || n == 0x2029 || n == 0x202F || n == 0x205F ||
    n == 0x3000

/-- Puts one more character in front of a text that is already split: its words, and whether it
begins inside the first of them. -/
def addChar (c : Char) : List (List Char) × Bool → List (List Char) × Bool
  | (found, inWord) =>
    match isBlank c, inWord, found with
    -- in front of a blank the next character is put into a word of its own
    | true, _, _ => (found, false)
    | false, true, w :: ws => ((c :: w) :: ws, true)
    | false, _, _ => ([c] :: found, true)

/-- The maximal runs of characters that are not blank, in order. -/
def words (line : List Char) : List (List Char) :=
  (line.foldr addChar ([], false)).1

/-- The words of a line of text. -/
def wordsOf (line : String) : List String :=
  (words line.toList).map String.ofList

/-- Whether a line holds no word. -/
def isBlankLine (line : String) : Bool :=
  line.toList.all isBlank

/-! ### What a word is -/

/-- Putting a character in front keeps every word blank-free and non-empty. -/
theorem mem_addChar {c : Char} {found : List (List Char)} {inWord : Bool}
    (h : ∀ w ∈ found, w ≠ [] ∧ ∀ d ∈ w, isBlank d = false) :
    ∀ w ∈ (addChar c (found, inWord)).1, w ≠ [] ∧ ∀ d ∈ w, isBlank d = false := by
  intro w hw
  cases hc : isBlank c with
  | true =>
    simp only [addChar, hc] at hw
    exact h w hw
  | false =>
    have hsingle : [c] ≠ [] ∧ ∀ d ∈ [c], isBlank d = false := by simp [hc]
    cases inWord with
    | false =>
      -- the character opens a word
      simp only [addChar, hc] at hw
      rcases List.mem_cons.1 hw with rfl | hw
      · exact hsingle
      · exact h w hw
    | true =>
      cases found with
      | nil =>
        simp only [addChar, hc] at hw
        obtain rfl := List.mem_singleton.1 hw
        exact hsingle
      | cons first rest =>
        simp only [addChar, hc] at hw
        rcases List.mem_cons.1 hw with rfl | hw
        · -- the character makes the first word longer
          refine ⟨List.cons_ne_nil _ _, fun d hd => ?_⟩
          rcases List.mem_cons.1 hd with rfl | hd
          · exact hc
          · exact (h first List.mem_cons_self).2 d hd
        · exact h w (List.mem_cons_of_mem _ hw)

theorem mem_foldr_addChar (line : List Char) :
    ∀ w ∈ (line.foldr addChar ([], false)).1, w ≠ [] ∧ ∀ c ∈ w, isBlank c = false := by
  induction line with
  | nil => intro w hw; exact absurd hw List.not_mem_nil
  | cons c rest ih => exact mem_addChar ih

theorem ne_nil_of_mem_words {line w : List Char} (h : w ∈ words line) : w ≠ [] :=
  (mem_foldr_addChar line w h).1

theorem blank_not_mem_words {line w : List Char} (h : w ∈ words line) :
    ∀ c ∈ w, isBlank c = false :=
  (mem_foldr_addChar line w h).2

end ChipAtlas.Text
