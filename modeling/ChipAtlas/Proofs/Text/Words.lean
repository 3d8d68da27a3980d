import ChipAtlas.Text.Blank

/-!
# Words that are joined and split again

A line written as words with a single blank between them splits into exactly these words.

* `IsWord` — what can stand between blanks: a text that is neither empty nor broken by a blank;
* `wordsOf_intercalate` — joining words with blanks is undone by splitting at blanks;
* `isBlankLine_eq` — a line is blank exactly if it has no word.
-/

namespace ChipAtlas.Text

/-- What is asked of the characters of a text is decided by going through the text, and not through
all characters. -/
instance (priority := high) decidableForallChar {p : Char → Prop} [DecidablePred p]
    (cs : List Char) : Decidable (∀ c ∈ cs, p c) :=
  List.decidableBAll p cs

/-- A text that can be a field of a line: neither empty nor broken by a blank. -/
def IsWord (text : String) : Prop := text ≠ "" ∧ ∀ c ∈ text.toList, isBlank c = false

instance (text : String) : Decidable (IsWord text) := inferInstanceAs (Decidable (_ ∧ _))

theorem isBlank_space : isBlank ' ' = true := by decide +kernel

theorem isBlank_lineFeed : isBlank '\n' = true := by decide +kernel

theorem IsWord.toList_ne_nil {text : String} (h : IsWord text) : text.toList ≠ [] :=
  fun hnil => h.1 (String.toList_eq_nil_iff.1 hnil)

/-- The words of a line are words. -/
theorem isWord_of_mem_wordsOf {line text : String} (h : text ∈ wordsOf line) : IsWord text := by
  obtain ⟨w, hw, rfl⟩ := List.mem_map.1 h
  refine ⟨fun hempty => ne_nil_of_mem_words hw ?_, fun c hc => ?_⟩
  · exact String.ofList_eq_empty_iff.1 hempty
  · rw [String.toList_ofList] at hc
    exact blank_not_mem_words hw c hc

/-! ### Splitting what was joined -/

/-- A word in front of a line that begins with a blank becomes its first word. -/
theorem foldr_addChar_word {w : List Char} (hne : w ≠ []) (h : ∀ c ∈ w, isBlank c = false)
    (found : List (List Char)) :
    w.foldr addChar (found, false) = (w :: found, true) := by
  induction w with
  | nil => exact absurd rfl hne
  | cons c w ih =>
    have hc : isBlank c = false := h c List.mem_cons_self
    rw [List.foldr_cons]
    cases w with
    -- the last character of the word opens it
    | nil => simp [addChar, hc]
    | cons d w =>
      rw [ih (List.cons_ne_nil d w) fun e he => h e (List.mem_cons_of_mem _ he)]
      simp [addChar, hc]

theorem words_word {w : List Char} (hne : w ≠ []) (h : ∀ c ∈ w, isBlank c = false) :
    words w = [w] := by
  rw [words, foldr_addChar_word hne h]

/-- The first blank ends the first word. -/
theorem words_append_blank {w : List Char} (hne : w ≠ []) (h : ∀ c ∈ w, isBlank c = false)
    {blank : Char} (hblank : isBlank blank = true) (rest : List Char) :
    words (w ++ blank :: rest) = w :: words rest := by
  -- the blank opens no word, and the word in front of it begins anew
  have hblank : addChar blank (rest.foldr addChar ([], false)) = (words rest, false) := by
    simp [addChar, words, hblank]
  rw [words, List.foldr_append, List.foldr_cons, hblank, foldr_addChar_word hne h]

/-- **Words are split where they were joined.** -/
theorem wordsOf_intercalate {fields : List String} (h : ∀ f ∈ fields, IsWord f) :
    wordsOf (String.intercalate " " fields) = fields := by
  induction fields with
  | nil => simp [wordsOf, words]
  | cons f fields ih =>
    have hf := h f List.mem_cons_self
    have ih := ih fun g hg => h g (List.mem_cons_of_mem _ hg)
    cases fields with
    | nil =>
      rw [String.intercalate_singleton, wordsOf, words_word hf.toList_ne_nil hf.2]
      simp
    | cons g fields =>
      -- the first field is cut off by the first blank
      have hlist : (String.intercalate " " (f :: g :: fields)).toList
          = f.toList ++ ' ' :: (String.intercalate " " (g :: fields)).toList := by
        rw [String.intercalate_cons_cons]
        simp
      rw [wordsOf, hlist, words_append_blank hf.toList_ne_nil hf.2 isBlank_space, List.map_cons,
        String.ofList_toList]
      exact congrArg (f :: ·) ih

theorem IsWord.lineFeed_not_mem {text : String} (h : IsWord text) : '\n' ∉ text.toList := by
  intro hmem
  have := h.2 _ hmem
  rw [isBlank_lineFeed] at this
  exact absurd this (by decide)

/-- Joined fields hold no line feed if none of them does. -/
theorem lineFeed_not_mem_intercalate {fields : List String} (h : ∀ f ∈ fields, '\n' ∉ f.toList) :
    '\n' ∉ (String.intercalate " " fields).toList := by
  induction fields with
  | nil => simp
  | cons f fields ih =>
    have hf := h f List.mem_cons_self
    have ih := ih fun g hg => h g (List.mem_cons_of_mem _ hg)
    cases fields with
    | nil => rwa [String.intercalate_singleton]
    | cons g fields =>
      rw [String.intercalate_cons_cons]
      simp only [String.toList_append, List.mem_append, not_or]
      exact ⟨⟨hf, by decide⟩, ih⟩

/-! ### Blank lines -/

theorem words_eq_nil_iff {line : List Char} : words line = [] ↔ line.all isBlank := by
  induction line with
  | nil => simp [words]
  | cons c line ih =>
    rw [words] at ih ⊢
    rw [List.foldr_cons, List.all_cons]
    -- what the split is does not matter, only whether it has found a word
    generalize line.foldr addChar ([], false) = split at ih ⊢
    obtain ⟨found, inWord⟩ := split
    cases hc : isBlank c with
    -- a blank adds no word, and any other character does
    | true => simpa [addChar, hc] using ih
    | false => cases inWord <;> cases found <;> simp [addChar, hc]

/-- **A line is blank exactly if it has no word.** -/
theorem isBlankLine_eq (line : String) : isBlankLine line = (wordsOf line).isEmpty := by
  rw [Bool.eq_iff_iff, List.isEmpty_iff, wordsOf, List.map_eq_nil_iff, words_eq_nil_iff]
  rfl

end ChipAtlas.Text
