import ChipAtlas.Proofs.Reading.Line

/-!
# Plaintext stays inside its line

Deciphering cannot make a line feed: the substitution only gives characters from the blank on, and a
character behind an escape mark stands in the line itself. So a record that is read from one line
makes one line of the dump.

* `Cipher.shift_ne_lineFeed` — the substitution;
* `lineFeed_not_mem_of_deciphered` — a record with some of its fields deciphered.
-/

namespace ChipAtlas

open Cipher (KeyStream isAscii shift escapeMark)
open Stateful

namespace Cipher

/-- The substitution gives no control character. -/
theorem shift_ne_lineFeed {c k : Char} (hc : isAscii c) (hk : isAscii k) : shift c k ≠ '\n' := by
  simp only [isAscii, decide_eq_true_eq] at hc hk
  unfold shift wrap
  split
  · decide
  · dsimp only
    -- the character has a number of at least 0x20, whether it is wrapped or not
    intro heq
    have hnat := congrArg Char.toNat heq
    rw [toNat_ofNat_of_lt (by omega)] at hnat
    have hfeed : '\n'.toNat = 10 := rfl
    omega

namespace KeyStream

theorem lineFeed_not_mem_of_decipherChars {cs out : List Char} {ks ks' : KeyStream}
    (hcs : '\n' ∉ cs) (h : decipherChars cs ks = .ok out ks') : '\n' ∉ out := by
  induction cs using decipherChars.induct generalizing ks out with
  | case1 =>
    obtain ⟨rfl, -⟩ := EStateM.Result.ok.inj h
    exact hcs
  | case2 c rest hc ihEscaped ih =>
    -- the recursion takes two characters behind an escape mark and one otherwise
    by_cases hmark : c = escapeMark
    · subst hmark
      cases rest with
      | nil =>
        rw [decipherChars.eq_def] at h
        exact absurd h error_ne_ok
      | cons literal rest =>
        -- the character behind the mark stands for itself
        by_cases hliteral : isAscii literal
        · rw [decipherChars_escape hliteral] at h
          obtain ⟨tail, htail, rfl⟩ := exists_of_map_eq_ok h
          rw [List.mem_cons, List.mem_cons, not_or, not_or] at hcs
          exact List.not_mem_cons_of_ne_of_not_mem hcs.2.1 (ihEscaped hcs.2.2 htail)
        · rw [decipherChars.eq_def] at h
          simp only [if_true, if_neg hliteral] at h
          exact absurd h error_ne_ok
    · rw [decipherChars_cons hc hmark] at h
      obtain ⟨tail, htail, rfl⟩ := exists_of_map_eq_ok h
      exact List.not_mem_cons_of_ne_of_not_mem (shift_ne_lineFeed hc ks.isAscii_symbol).symm
        (ih (List.not_mem_of_not_mem_cons hcs) htail)
  | case3 c rest hc =>
    rw [decipherChars.eq_def] at h
    simp only [if_neg hc] at h
    exact absurd h error_ne_ok

theorem lineFeed_not_mem_of_decipher {field text : String} {ks ks' : KeyStream}
    (hfield : '\n' ∉ field.toList) (h : decipher field ks = .ok text ks') : '\n' ∉ text.toList := by
  obtain ⟨out, hout, rfl⟩ := exists_of_map_eq_ok h
  rw [String.toList_ofList]
  exact lineFeed_not_mem_of_decipherChars hfield hout

end KeyStream

end Cipher

theorem lineFeed_not_mem_of_decipherFields {indices : List Nat} {fields out : Record}
    {keys keys' : Option KeyStream} (hfields : ∀ f ∈ fields, '\n' ∉ f.toList)
    (h : decipherFields indices fields keys = .ok out keys') : ∀ f ∈ out, '\n' ∉ f.toList := by
  induction indices generalizing fields keys with
  | nil =>
    obtain ⟨rfl, -⟩ := EStateM.Result.ok.inj h
    exact hfields
  | cons i indices ih =>
    rw [decipherFields] at h
    split at h
    · exact absurd h error_ne_ok
    · next field hfield =>
      split at h
      · next text keys₁ htext =>
        refine ih (fun f hf => ?_) h
        -- a field of the line, or the one just deciphered
        rcases List.mem_or_eq_of_mem_set hf with hf | rfl
        · exact hfields f hf
        · cases keys with
          | none => exact absurd htext error_ne_ok
          | some ks =>
            rw [decipherField] at htext
            split at htext
            · next hks =>
              obtain ⟨rfl, -⟩ := EStateM.Result.ok.inj htext
              exact KeyStream.lineFeed_not_mem_of_decipher
                (hfields field (List.mem_of_getElem? hfield)) hks
            · exact absurd htext error_ne_ok
      · exact absurd h error_ne_ok

/-- **A record has no line feed**, whichever of its fields were deciphered. -/
theorem lineFeed_not_mem_of_deciphered {selection : Selection} {raw : String} {fields : Record}
    {keys keys' : Option KeyStream} (h : Reading.deciphered selection raw keys = .ok fields keys') :
    ∀ f ∈ fields, '\n' ∉ f.toList :=
  lineFeed_not_mem_of_decipherFields
    (fun _ hf => (Text.isWord_of_mem_wordsOf hf).lineFeed_not_mem) h

end ChipAtlas
