import ChipAtlas.Proofs.Cipher.Inverse
import Mathlib.Data.Char
import Mathlib.Data.List.Forall2
import Mathlib.Data.Set.Function
import Mathlib.Order.Interval.Set.Defs

/-!
# Canonical ciphertexts

A reader takes more ciphertexts than a writer makes: it takes an escape mark in front of every
ASCII character, also of one that has a substitute, and substitutes whose plaintext is a blank. The
ciphertexts that are made are the canonical ones. Read with the key symbol under the cursor, each of
their parts is a substitute with a graphic plaintext, or a graphic character behind an escape mark
that no substitute stands for.

Everything rests on what one key symbol does. The substitutes are 93 characters in a row, and a
key symbol moves them all by one distance modulo 93 (`exists_turns`), so no two of them have the
same plaintext. Under a symbol with a number of two or more the plaintexts are the 93 characters
from the blank to `|` (`bijOn_shift`), which leaves `}` and `~` as the only graphic characters
without a substitute. Under the symbols zero and one nothing is ever moved up again, and others are
left.

* `KeyStream.IsCanonical` — the ciphertexts that a key stream makes;
* `KeyStream.isCanonical_of_encipherChars`, `KeyStream.IsCanonical.exists_encipherChars` — what is
  made is canonical, and what is canonical is made;
* `KeyStream.bijOn_ciphertextOf` — graphic fields and canonical ciphertexts correspond one to one.
-/

namespace ChipAtlas.Cipher

open ChipAtlas.Stateful

/-! ### One key symbol -/

theorem mem_substitutes_iff {c : Char} : c ∈ substitutes ↔ c ∈ Set.Icc '"' '~' := by
  rw [mem_substitutes, Set.mem_Icc, Char.le_def, Char.le_def, UInt32.le_iff_toNat_le,
    UInt32.le_iff_toNat_le]
  rfl

/-- The characters from the blank to `|`, by their numbers. -/
theorem mem_plaintexts_iff {c : Char} :
    c ∈ Set.Icc ' ' '|' ↔ 0x20 ≤ c.toNat ∧ c.toNat ≤ 0x7C := by
  rw [Set.mem_Icc, Char.le_def, Char.le_def, UInt32.le_iff_toNat_le, UInt32.le_iff_toNat_le]
  rfl

section Shift

variable {c k : Char}

/-- **One key symbol.** It moves a substitute down by its own number, and up again by 93 as often as
it takes to reach the blank. -/
theorem exists_turns (hc : c ∈ Set.Icc '"' '~') (hk : isAscii k) :
    ∃ turns, (shift c k).toNat + k.toNat = c.toNat + 93 * turns ∧ 0x20 ≤ (shift c k).toNat ∧
      (2 ≤ k.toNat → (shift c k).toNat ≤ 0x7C) := by
  rw [← mem_substitutes_iff, mem_substitutes] at hc
  simp only [isAscii, decide_eq_true_eq] at hk
  have hblank : c ≠ ' ' := by
    rintro rfl
    have : ' '.toNat = 0x20 := rfl
    omega
  unfold shift wrap
  rw [if_neg hblank]
  dsimp only
  rw [toNat_ofNat_of_lt (by omega)]
  by_cases hbelow : c.toNat < k.toNat
  · rw [if_pos hbelow]
    split
    · exact ⟨2, by omega, by omega, by omega⟩
    · exact ⟨1, by omega, by omega, by omega⟩
  · rw [if_neg hbelow]
    split
    · exact ⟨1, by omega, by omega, by omega⟩
    · exact ⟨0, by omega, by omega, by omega⟩

theorem injOn_shift (hk : isAscii k) : Set.InjOn (shift · k) (Set.Icc '"' '~') := by
  intro c hc d hd heq
  obtain ⟨turns, hturns, -⟩ := exists_turns hc hk
  obtain ⟨turns', hturns', -⟩ := exists_turns hd hk
  have hnat : (shift c k).toNat = (shift d k).toNat := congrArg Char.toNat heq
  have hcbounds := mem_substitutes.1 (mem_substitutes_iff.2 hc)
  have hdbounds := mem_substitutes.1 (mem_substitutes_iff.2 hd)
  -- two substitutes are less than 93 apart
  rw [← Char.toNat_inj]
  omega

theorem mapsTo_shift (hk : isAscii k) (htwo : 2 ≤ k.toNat) :
    Set.MapsTo (shift · k) (Set.Icc '"' '~') (Set.Icc ' ' '|') := by
  intro c hc
  obtain ⟨turns, -, hlow, hhigh⟩ := exists_turns hc hk
  exact mem_plaintexts_iff.2 ⟨hlow, hhigh htwo⟩

theorem surjOn_shift (hk : isAscii k) (htwo : 2 ≤ k.toNat) :
    Set.SurjOn (shift · k) (Set.Icc '"' '~') (Set.Icc ' ' '|') := by
  intro d hd
  obtain ⟨hlow, hhigh⟩ := mem_plaintexts_iff.1 hd
  -- of 93 numbers in a row, one is that of the plaintext and the key symbol together, modulo 93
  obtain ⟨n, turns, hn, hsum⟩ : ∃ n turns, (0x22 ≤ n ∧ n ≤ 0x7E) ∧
      n + 93 * turns = d.toNat + k.toNat := by
    refine ⟨0x22 + (d.toNat + k.toNat - 0x22) % 93, (d.toNat + k.toNat - 0x22) / 93, ?_, ?_⟩ <;>
      omega
  have hval : (Char.ofNat n).toNat = n := toNat_ofNat_of_lt (by omega)
  have hmem : Char.ofNat n ∈ Set.Icc '"' '~' :=
    mem_substitutes_iff.1 (mem_substitutes.2 (by rwa [hval]))
  refine ⟨Char.ofNat n, hmem, ?_⟩
  obtain ⟨turns', hturns', hlow', hhigh'⟩ := exists_turns hmem hk
  have hbound := hhigh' htwo
  rw [hval] at hturns'
  -- two plaintexts are less than 93 apart, too
  show shift (Char.ofNat n) k = d
  rw [← Char.toNat_inj]
  omega

/-- **A key symbol of two or more.** The substitutes stand for the characters from the blank to `|`,
one each. -/
theorem bijOn_shift (hk : isAscii k) (htwo : 2 ≤ k.toNat) :
    Set.BijOn (shift · k) (Set.Icc '"' '~') (Set.Icc ' ' '|') :=
  ⟨mapsTo_shift hk htwo, injOn_shift hk, surjOn_shift hk htwo⟩

end Shift

namespace KeyStream

/-! ### One character -/

variable {c k s : Char}

/-- A substitute is written for its plaintext, and not another one before it. -/
theorem cipherText_shift (hs : s ∈ Set.Icc '"' '~') (hk : isAscii k) :
    cipherText k (shift s k) = [s] := by
  unfold cipherText
  split
  · next found hfound =>
    have hshift : shift found k = shift s k := by simpa using List.find?_some hfound
    have hmem := mem_substitutes_iff.1 (List.mem_of_find?_eq_some hfound)
    rw [injOn_shift hk hmem hs hshift]
  · next hnone =>
    have := List.find?_eq_none.1 hnone s (mem_substitutes_iff.2 hs)
    simp at this

/-- A character is escaped if no substitute stands for it. -/
theorem cipherText_of_alone (h : ∀ s ∈ Set.Icc '"' '~', shift s k ≠ c) :
    cipherText k c = [escapeMark, c] := by
  have hnone : substitutes.find? (fun s => decide (shift s k = c)) = none := by
    rw [List.find?_eq_none]
    intro s hs
    simpa using h s (mem_substitutes_iff.1 hs)
  rw [cipherText, hnone]

/-- Under a key symbol of two or more, exactly `}` and `~` have no substitute. -/
theorem exists_shift_eq_iff (hk : isAscii k) (htwo : 2 ≤ k.toNat) (hc : isGraphic c) :
    (∃ s ∈ Set.Icc '"' '~', shift s k = c) ↔ ¬ (c = '}' ∨ c = '~') := by
  have himage : (∃ s ∈ Set.Icc '"' '~', shift s k = c) ↔ c ∈ Set.Icc ' ' '|' := by
    rw [← (bijOn_shift hk htwo).image_eq]
    rfl
  simp only [isGraphic, Bool.and_eq_true, decide_eq_true_eq] at hc
  have hbrace : '}'.toNat = 0x7D := rfl
  have htilde : '~'.toNat = 0x7E := rfl
  rw [himage, mem_plaintexts_iff, ← Char.toNat_inj, ← Char.toNat_inj]
  omega

/-! ### Runs of characters -/

/-- The ciphertexts that a key stream makes, part by part: a substitute with a graphic plaintext, or
a graphic character that has no substitute, behind an escape mark. -/
inductive IsCanonical : KeyStream → List Char → Prop
  | nil (ks : KeyStream) : IsCanonical ks []
  | substitute {ks : KeyStream} {s : Char} {rest : List Char} (mem : s ∈ Set.Icc '"' '~')
      (graphic : isGraphic (shift s ks.symbol)) (canonical : IsCanonical ks.advance rest) :
      IsCanonical ks (s :: rest)
  | escaped {ks : KeyStream} {c : Char} {rest : List Char} (graphic : isGraphic c)
      (alone : ∀ s ∈ Set.Icc '"' '~', shift s ks.symbol ≠ c)
      (canonical : IsCanonical ks.advance rest) : IsCanonical ks (escapeMark :: c :: rest)

variable {cs out text : List Char} {ks ks' : KeyStream}

/-- **What is made is canonical.** -/
theorem isCanonical_of_encipherChars (h : encipherChars cs ks = .ok out ks') :
    IsCanonical ks out := by
  induction cs generalizing ks out with
  | nil =>
    obtain ⟨rfl, -⟩ := EStateM.Result.ok.inj h
    exact .nil ks
  | cons c rest ih =>
    have hc := isGraphic_of_encipherChars h c List.mem_cons_self
    rw [encipherChars_cons hc] at h
    obtain ⟨out', hout, rfl⟩ := exists_of_map_eq_ok h
    have hrest := ih hout
    -- the first character has a substitute, or it is escaped for want of one
    by_cases hsub : ∃ s ∈ Set.Icc '"' '~', shift s ks.symbol = c
    · obtain ⟨s, hs, rfl⟩ := hsub
      rw [cipherText_shift hs ks.isAscii_symbol]
      exact .substitute hs hc hrest
    · have halone : ∀ s ∈ Set.Icc '"' '~', shift s ks.symbol ≠ c :=
        fun s hs heq => hsub ⟨s, hs, heq⟩
      rw [cipherText_of_alone halone]
      exact .escaped hc halone hrest

/-- **What is canonical is made**, from the characters that it deciphers to. -/
theorem IsCanonical.exists_encipherChars (h : IsCanonical ks text) :
    ∃ cs ks', (∀ c ∈ cs, isGraphic c) ∧ encipherChars cs ks = .ok text ks' := by
  induction h with
  | nil ks => exact ⟨[], ks, nofun, rfl⟩
  | @substitute ks s rest mem graphic _ ih =>
    obtain ⟨cs, ks', hcs, hrest⟩ := ih
    refine ⟨shift s ks.symbol :: cs, ks', List.forall_mem_cons.2 ⟨graphic, hcs⟩, ?_⟩
    rw [encipherChars_cons graphic, cipherText_shift mem ks.isAscii_symbol]
    exact map_of_ok hrest
  | @escaped ks c rest graphic alone _ ih =>
    obtain ⟨cs, ks', hcs, hrest⟩ := ih
    refine ⟨c :: cs, ks', List.forall_mem_cons.2 ⟨graphic, hcs⟩, ?_⟩
    rw [encipherChars_cons graphic, cipherText_of_alone alone]
    exact map_of_ok hrest

/-- The part of a ciphertext that stands for one character: `}` and `~` are escaped, and every other
character has a substitute. -/
def IsPart (c : Char) (part : List Char) : Prop :=
  if c = '}' ∨ c = '~' then part = [escapeMark, c] else ∃ s ∈ Set.Icc '"' '~', part = [s]

theorem isPart_cipherText (hk : isAscii k) (htwo : 2 ≤ k.toNat) (hc : isGraphic c) :
    IsPart c (cipherText k c) := by
  have hshift := exists_shift_eq_iff hk htwo hc
  unfold IsPart
  split
  · next hlast =>
    refine cipherText_of_alone fun s hs heq => ?_
    exact hshift.1 ⟨s, hs, heq⟩ hlast
  · next hother =>
    obtain ⟨s, hs, rfl⟩ := hshift.2 hother
    exact ⟨s, hs, cipherText_shift hs hk⟩

/-- A ciphertext falls into one part for each character. -/
theorem exists_parts_of_encipherChars (hkey : ∀ k ∈ ks.key, 2 ≤ k.toNat)
    (h : encipherChars cs ks = .ok out ks') :
    ∃ parts, out = parts.flatten ∧ List.Forall₂ IsPart cs parts := by
  induction cs generalizing ks out with
  | nil =>
    obtain ⟨rfl, -⟩ := EStateM.Result.ok.inj h
    exact ⟨[], rfl, .nil⟩
  | cons c rest ih =>
    have hc := isGraphic_of_encipherChars h c List.mem_cons_self
    rw [encipherChars_cons hc] at h
    obtain ⟨out', hout, rfl⟩ := exists_of_map_eq_ok h
    -- the key is the same for the rest, only the cursor has moved
    have hkey' : ∀ k ∈ ks.advance.key, 2 ≤ k.toNat := hkey
    obtain ⟨parts, rfl, hparts⟩ := ih hkey' hout
    have hfirst := isPart_cipherText ks.isAscii_symbol (hkey _ ks.symbol_mem_key) hc
    exact ⟨cipherText ks.symbol c :: parts, rfl, .cons hfirst hparts⟩

/-! ### Fields -/

/-- What is written for a field, if it can be enciphered. -/
def ciphertextOf (ks : KeyStream) (field : String) : String :=
  match encipher field ks with
  | .ok text _ => text
  | .error _ _ => ""

theorem encipher_eq_ok {field text : String} :
    encipher field ks = .ok text ks' ↔ encipherChars field.toList ks = .ok text.toList ks' := by
  refine ⟨?_, ?_⟩
  · intro h
    obtain ⟨out, hout, rfl⟩ := exists_of_map_eq_ok h
    rwa [String.toList_ofList]
  · intro h
    have := map_of_ok (g := String.ofList) h
    rwa [String.ofList_toList] at this

/-- A graphic field has a ciphertext, and is what the ciphertext deciphers to. -/
theorem exists_encipher_ciphertextOf {field : String} (h : ∀ c ∈ field.toList, isGraphic c)
    (ks : KeyStream) :
    ∃ ks', encipher field ks = .ok (ciphertextOf ks field) ks' ∧
      decipher (ciphertextOf ks field) ks = .ok field ks' := by
  obtain ⟨text, ks', htext⟩ := exists_encipher h ks
  have heq : ciphertextOf ks field = text := by rw [ciphertextOf, htext]
  rw [heq]
  exact ⟨ks', htext, decipher_of_encipher htext⟩

/-- A canonical text is made of a graphic field, the one that it deciphers to. -/
theorem IsCanonical.exists_decipher {text : String} (h : IsCanonical ks text.toList) :
    ∃ field ks', (∀ c ∈ field.toList, isGraphic c) ∧ decipher text ks = .ok field ks' ∧
      encipher field ks = .ok text ks' := by
  obtain ⟨cs, ks', hcs, hmade⟩ := h.exists_encipherChars
  have htext : encipher (String.ofList cs) ks = .ok text ks' := by
    rw [encipher_eq_ok, String.toList_ofList]
    exact hmade
  refine ⟨String.ofList cs, ks', ?_, decipher_of_encipher htext, htext⟩
  rwa [String.toList_ofList]

/-- **Graphic fields and canonical ciphertexts.** From every key stream, enciphering is a one-to-one
correspondence between the graphic fields and the canonical ciphertexts. Deciphering undoes it, and
it undoes deciphering, and both end with the same key stream. It rests on the correspondence between
substitutes and plaintexts that each key symbol of two or more makes; if the key has only such
symbols, exactly the characters `}` and `~` of a field are escaped. -/
theorem bijOn_ciphertextOf (ks : KeyStream) :
    Set.BijOn (ciphertextOf ks) {field | ∀ c ∈ field.toList, isGraphic c}
        {text | IsCanonical ks text.toList} ∧
      (∀ field : String, (∀ c ∈ field.toList, isGraphic c) →
        ∃ ks', encipher field ks = .ok (ciphertextOf ks field) ks' ∧
          decipher (ciphertextOf ks field) ks = .ok field ks') ∧
      (∀ text : String, IsCanonical ks text.toList →
        ∃ field ks', (∀ c ∈ field.toList, isGraphic c) ∧ decipher text ks = .ok field ks' ∧
          encipher field ks = .ok text ks') ∧
      (∀ k, isAscii k → 2 ≤ k.toNat →
        Set.BijOn (shift · k) (Set.Icc '"' '~') {c | 0x20 ≤ c.toNat ∧ c.toNat ≤ 0x7C}) ∧
      ((∀ k ∈ ks.key, 2 ≤ k.toNat) → ∀ field : String, (∀ c ∈ field.toList, isGraphic c) →
        ∃ parts, (ciphertextOf ks field).toList = parts.flatten ∧
          List.Forall₂ IsPart field.toList parts) := by
  refine ⟨⟨?_, ?_, ?_⟩, ?_, ?_, ?_, ?_⟩
  · intro field hfield
    obtain ⟨ks', hks', -⟩ := exists_encipher_ciphertextOf hfield ks
    exact isCanonical_of_encipherChars (encipher_eq_ok.1 hks')
  · intro field hfield field' hfield' heq
    obtain ⟨ks', -, hback⟩ := exists_encipher_ciphertextOf hfield ks
    obtain ⟨ks'', -, hback'⟩ := exists_encipher_ciphertextOf hfield' ks
    -- one ciphertext deciphers to one field
    have heq : ciphertextOf ks field = ciphertextOf ks field' := heq
    rw [← heq, hback] at hback'
    exact (EStateM.Result.ok.inj hback').1
  · intro text htext
    obtain ⟨field, ks', hfield, -, hks'⟩ := IsCanonical.exists_decipher htext
    refine ⟨field, hfield, ?_⟩
    rw [ciphertextOf, hks']
  · exact fun field hfield => exists_encipher_ciphertextOf hfield ks
  · exact fun text htext => htext.exists_decipher
  · intro k hk htwo
    have hset : {c : Char | 0x20 ≤ c.toNat ∧ c.toNat ≤ 0x7C} = Set.Icc ' ' '|' := by
      ext c
      exact mem_plaintexts_iff.symm
    rw [hset]
    exact bijOn_shift hk htwo
  · intro hkey field hfield
    obtain ⟨ks', hks', -⟩ := exists_encipher_ciphertextOf hfield ks
    exact exists_parts_of_encipherChars hkey (encipher_eq_ok.1 hks')

/-- A key stream in the middle of its key. -/
def innerStream : KeyStream := ⟨['T', 'A', 'N', 'G'], 1, by decide, by decide⟩

theorem bijOn_ciphertextOf_lastGraphic :
    (∀ c ∈ "a~\x7d".toList, isGraphic c) ∧ (∀ k ∈ innerStream.key, 2 ≤ k.toNat) ∧
      ∃ ks', encipher "a~\x7d" innerStream = .ok "E!~!\x7d" ks' ∧
        decipher "E!~!\x7d" innerStream = .ok "a~\x7d" ks' ∧
        ∃ parts, "E!~!\x7d".toList = parts.flatten ∧ List.Forall₂ IsPart "a~\x7d".toList parts := by
  have hfield : ∀ c ∈ "a~\x7d".toList, isGraphic c := by decide
  have hkey : ∀ k ∈ innerStream.key, 2 ≤ k.toNat := by decide
  obtain ⟨-, hmade, -, -, hparts⟩ := bijOn_ciphertextOf innerStream
  have htext : ciphertextOf innerStream "a~\x7d" = "E!~!\x7d" := by decide +kernel
  obtain ⟨ks', hks', hback⟩ := hmade "a~\x7d" hfield
  obtain ⟨parts, hflat, hall⟩ := hparts hkey "a~\x7d" hfield
  rw [htext] at hks' hback hflat
  exact ⟨hfield, hkey, ks', hks', hback, parts, hflat, hall⟩

end KeyStream

end ChipAtlas.Cipher
