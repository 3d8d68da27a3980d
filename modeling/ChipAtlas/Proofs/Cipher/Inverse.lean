import ChipAtlas.Cipher.KeyStream
import ChipAtlas.Proofs.Stateful
import ChipAtlas.Proofs.Text.Words

/-!
# Deciphering undoes enciphering

What a writer makes of a field, a reader that starts from the same key stream turns back into the
field, and both end with the same key stream. A substitute is chosen because it deciphers to its
character, and no substitute is the escape mark, so the reader never mistakes one for an escape.

* `decipher_of_encipher` — the round trip of one field;
* `isWord_of_encipher` — an enciphered word is a word: no blank is written and nothing vanishes.
-/

namespace ChipAtlas.Cipher

open ChipAtlas.Stateful
open ChipAtlas.Text (IsWord isBlank)

/-! ### Characters -/

/-- A graphic character is in ASCII. -/
theorem isAscii_of_isGraphic {c : Char} (h : isGraphic c) : isAscii c := by
  simp only [isGraphic, Bool.and_eq_true, decide_eq_true_eq] at h
  simp only [isAscii, decide_eq_true_eq]
  omega

/-- A graphic character is no blank. -/
theorem isBlank_of_isGraphic {c : Char} (h : isGraphic c) : isBlank c = false := by
  simp only [isGraphic, Bool.and_eq_true, decide_eq_true_eq] at h
  unfold isBlank
  simp only [Bool.or_eq_false_iff, Bool.and_eq_false_iff, decide_eq_false_iff_not,
    beq_eq_false_iff_ne]
  omega

theorem toNat_ofNat_of_lt {n : Nat} (h : n < 0xD800) : (Char.ofNat n).toNat = n := by
  rw [Char.ofNat, dif_pos (show n.isValidChar from Or.inl h)]
  rfl

/-- The substitutes are the characters from the one behind the escape mark to the last graphic
one. -/
theorem mem_substitutes {c : Char} : c ∈ substitutes ↔ 0x22 ≤ c.toNat ∧ c.toNat ≤ 0x7E := by
  rw [substitutes, List.mem_map]
  refine ⟨?_, ?_⟩
  · rintro ⟨n, hn, rfl⟩
    rw [List.mem_range'_1] at hn
    rw [toNat_ofNat_of_lt (by omega)]
    omega
  · rintro ⟨hlow, hhigh⟩
    refine ⟨c.toNat, ?_, Char.ofNat_toNat c⟩
    rw [List.mem_range'_1]
    omega

/-- The substitutes are graphic, and none of them is the escape mark. -/
theorem isGraphic_of_mem_substitutes {c : Char} (h : c ∈ substitutes) :
    isGraphic c ∧ c ≠ escapeMark := by
  rw [mem_substitutes] at h
  refine ⟨?_, ?_⟩
  · simp only [isGraphic, Bool.and_eq_true, decide_eq_true_eq]
    omega
  · -- the mark lies just below the substitutes
    rintro rfl
    have : escapeMark.toNat = 0x21 := by decide
    omega

namespace KeyStream

/-- What is written for one character: a substitute that deciphers to it, or the character itself
behind an escape mark. -/
theorem cipherText_cases (k c : Char) :
    (∃ s ∈ substitutes, cipherText k c = [s] ∧ shift s k = c) ∨
      cipherText k c = [escapeMark, c] := by
  unfold cipherText
  split
  -- the substitute was searched for by what it deciphers to
  case h_1 s hs =>
    refine Or.inl ⟨s, List.mem_of_find?_eq_some hs, rfl, ?_⟩
    simpa using List.find?_some hs
  case h_2 => exact Or.inr rfl

theorem isGraphic_of_mem_cipherText {k c d : Char} (hc : isGraphic c) (hd : d ∈ cipherText k c) :
    isGraphic d := by
  -- the substitutes are graphic, the mark is, and so is the character itself
  rcases cipherText_cases k c with ⟨s, hs, hs', -⟩ | hesc
  · rw [hs', List.mem_singleton] at hd
    exact hd ▸ (isGraphic_of_mem_substitutes hs).1
  · rw [hesc] at hd
    rcases List.mem_cons.1 hd with rfl | hd
    -- this is the mark
    · decide
    · exact List.mem_singleton.1 hd ▸ hc

theorem cipherText_ne_nil (k c : Char) : cipherText k c ≠ [] := by
  rcases cipherText_cases k c with ⟨s, -, hs', -⟩ | hesc
  · rw [hs']; exact List.cons_ne_nil _ _
  · rw [hesc]; exact List.cons_ne_nil _ _

/-! ### Runs of characters -/

theorem encipherChars_cons {c : Char} (hc : isGraphic c) (rest : List Char) (ks : KeyStream) :
    encipherChars (c :: rest) ks =
      ((cipherText ks.symbol c ++ ·) <$> encipherChars rest) ks.advance := by
  rw [encipherChars, if_pos hc]
  rfl

/-- A run that is enciphered consists of graphic characters. -/
theorem isGraphic_of_encipherChars {cs out : List Char} {ks ks' : KeyStream}
    (h : encipherChars cs ks = .ok out ks') : ∀ c ∈ cs, isGraphic c := by
  induction cs generalizing ks out with
  | nil => intro c hc; exact absurd hc List.not_mem_nil
  | cons c rest ih =>
    by_cases hc : isGraphic c
    · rw [encipherChars_cons hc] at h
      obtain ⟨out', hout, -⟩ := exists_of_map_eq_ok h
      intro d hd
      rcases List.mem_cons.1 hd with rfl | hd
      · exact hc
      · exact ih hout d hd
    · -- the first character that is not graphic stops the writer
      rw [encipherChars, if_neg hc] at h
      exact absurd h error_ne_ok

/-- Graphic characters are enciphered from every key stream. -/
theorem exists_encipherChars {cs : List Char} (h : ∀ c ∈ cs, isGraphic c) (ks : KeyStream) :
    ∃ out ks', encipherChars cs ks = .ok out ks' := by
  induction cs generalizing ks with
  | nil => exact ⟨[], ks, rfl⟩
  | cons c rest ih =>
    -- the rest is enciphered from the next symbol on
    obtain ⟨out, ks', hout⟩ := ih (fun d hd => h d (List.mem_cons_of_mem _ hd)) ks.advance
    rw [encipherChars_cons (h c List.mem_cons_self)]
    exact ⟨_, ks', map_of_ok hout⟩

theorem decipherChars_cons {c : Char} (hc : isAscii c) (hne : c ≠ escapeMark)
    (rest : List Char) (ks : KeyStream) :
    decipherChars (c :: rest) ks =
      ((shift c ks.symbol :: ·) <$> decipherChars rest) ks.advance := by
  rw [decipherChars.eq_def]
  dsimp only
  rw [if_pos hc]
  simp only [if_neg hne]
  rfl

theorem decipherChars_escape {c : Char} (hc : isAscii c) (rest : List Char) (ks : KeyStream) :
    decipherChars (escapeMark :: c :: rest) ks =
      ((c :: ·) <$> decipherChars rest) ks.advance := by
  rw [decipherChars.eq_def]
  dsimp only
  rw [if_pos (by decide)]
  simp only [if_true, if_pos hc]
  rfl

/-- What is written for one character is read back as this character, in one step of the cursor. -/
theorem decipherChars_cipherText {c : Char} (hc : isGraphic c) (rest : List Char)
    (ks : KeyStream) :
    decipherChars (cipherText ks.symbol c ++ rest) ks =
      ((c :: ·) <$> decipherChars rest) ks.advance := by
  rcases cipherText_cases ks.symbol c with ⟨s, hs, hs', hshift⟩ | hesc
  -- a substitute is no mark, so the reader substitutes it back
  · have ⟨hgraphic, hne⟩ := isGraphic_of_mem_substitutes hs
    rw [hs', List.singleton_append, decipherChars_cons (isAscii_of_isGraphic hgraphic) hne, hshift]
  · rw [hesc, List.cons_append, List.singleton_append,
      decipherChars_escape (isAscii_of_isGraphic hc)]

theorem decipherChars_of_encipherChars {cs out : List Char} {ks ks' : KeyStream}
    (h : encipherChars cs ks = .ok out ks') : decipherChars out ks = .ok cs ks' := by
  induction cs generalizing ks out with
  | nil =>
    obtain ⟨rfl, rfl⟩ := EStateM.Result.ok.inj h
    rfl
  | cons c rest ih =>
    -- what was written for the first character stands in front, so the reader begins with it
    have hc := isGraphic_of_encipherChars h c List.mem_cons_self
    rw [encipherChars_cons hc] at h
    obtain ⟨out', hout, rfl⟩ := exists_of_map_eq_ok h
    rw [decipherChars_cipherText hc]
    exact map_of_ok (ih hout)

theorem isGraphic_of_mem_encipherChars {cs out : List Char} {ks ks' : KeyStream}
    (h : encipherChars cs ks = .ok out ks') : ∀ d ∈ out, isGraphic d := by
  induction cs generalizing ks out with
  | nil =>
    obtain ⟨rfl, -⟩ := EStateM.Result.ok.inj h
    intro d hd; exact absurd hd List.not_mem_nil
  | cons c rest ih =>
    have hc := isGraphic_of_encipherChars h c List.mem_cons_self
    rw [encipherChars_cons hc] at h
    obtain ⟨out', hout, rfl⟩ := exists_of_map_eq_ok h
    intro d hd
    rcases List.mem_append.1 hd with hd | hd
    · exact isGraphic_of_mem_cipherText hc hd
    · exact ih hout d hd

theorem encipherChars_ne_nil {cs out : List Char} {ks ks' : KeyStream}
    (h : encipherChars cs ks = .ok out ks') (hne : cs ≠ []) : out ≠ [] := by
  cases cs with
  | nil => exact absurd rfl hne
  | cons c rest =>
    have hc := isGraphic_of_encipherChars h c List.mem_cons_self
    rw [encipherChars_cons hc] at h
    obtain ⟨out', -, rfl⟩ := exists_of_map_eq_ok h
    -- something is written for the first character, whatever follows
    exact fun hnil => cipherText_ne_nil _ _ (List.append_eq_nil_iff.1 hnil).1

/-! ### Fields -/

/-- **The round trip of one field.** Deciphering what enciphering made of a field gives the field
back and moves the cursor as far. -/
theorem decipher_of_encipher {field text : String} {ks ks' : KeyStream}
    (h : encipher field ks = .ok text ks') : decipher text ks = .ok field ks' := by
  obtain ⟨out, hout, rfl⟩ := exists_of_map_eq_ok h
  -- a field is the text of its characters on both sides
  have := map_of_ok (g := String.ofList) (decipherChars_of_encipherChars hout)
  rwa [String.ofList_toList, ← String.toList_ofList (l := out)] at this

/-- An enciphered word is a word. -/
theorem isWord_of_encipher {field text : String} {ks ks' : KeyStream} (hfield : IsWord field)
    (h : encipher field ks = .ok text ks') : IsWord text := by
  obtain ⟨out, hout, rfl⟩ := exists_of_map_eq_ok h
  refine ⟨fun hempty => ?_, fun c hc => ?_⟩
  · exact encipherChars_ne_nil hout hfield.toList_ne_nil (String.ofList_eq_empty_iff.1 hempty)
  · rw [String.toList_ofList] at hc
    exact isBlank_of_isGraphic (isGraphic_of_mem_encipherChars hout c hc)

/-- A field of graphic characters is enciphered from every key stream. -/
theorem exists_encipher {field : String} (h : ∀ c ∈ field.toList, isGraphic c) (ks : KeyStream) :
    ∃ text ks', encipher field ks = .ok text ks' := by
  obtain ⟨out, ks', hout⟩ := exists_encipherChars h ks
  exact ⟨_, ks', map_of_ok hout⟩

/-! ### Keys -/

theorem symbol_mem_key (ks : KeyStream) : ks.symbol ∈ ks.key := List.get_mem ks.key _

theorem isAscii_symbol (ks : KeyStream) : isAscii ks.symbol := ks.ascii _ ks.symbol_mem_key

/-- Every non-empty ASCII key has a key stream, wherever it is started. -/
theorem exists_create {key : String} (start : Nat) (hne : key ≠ "")
    (hascii : ∀ c ∈ key.toList, isAscii c) : ∃ ks, create key start = .ok ks := by
  have hlen : key.toList.length ≠ 0 := fun h =>
    hne (String.toList_eq_nil_iff.1 (List.length_eq_zero_iff.1 h))
  rw [create, dif_neg hlen]
  split
  · next c hc =>
    -- a character outside ASCII was found, against what is known of the key
    have hmem := List.mem_of_find?_eq_some hc
    have hbad := List.find?_some hc
    rw [hascii c hmem] at hbad
    exact absurd hbad (by decide)
  · exact ⟨_, rfl⟩

end KeyStream

end ChipAtlas.Cipher
