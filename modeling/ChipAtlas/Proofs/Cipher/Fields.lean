import ChipAtlas.Proofs.Cipher.Inverse
import ChipAtlas.Writing

/-!
# The ciphered fields of a record

Deciphering the selected fields of a record touches nothing of a reading but its key stream, and
enciphering them nothing of a writing but its key stream. The two are stated here on the key stream
alone, `decipherFields` and `encipherFields`, as what reading and writing do to it.

* `decipherFields_of_encipherFields` — deciphering undoes enciphering, in the same order of
  positions, if no position is listed twice and none is past the last field;
* `Selection.indices_nodup_lt` — when the positions that a selection makes are of this kind.
-/

namespace ChipAtlas

open Cipher (Fault KeyStream isGraphic)
open Cipher.KeyStream (decipher_of_encipher exists_encipher isWord_of_encipher)
open Stateful
open Text (IsWord)

/-! ### On the key stream alone -/

/-- Deciphers one field, if there is a key stream. -/
def decipherField (field : String) : EStateM Fault (Option KeyStream) String
  | none => .error .noKey none
  | some keys =>
    match KeyStream.decipher field keys with
    | .ok text keys => .ok text (some keys)
    | .error fault keys => .error fault (some keys)

/-- Enciphers one field, if there is a key stream. -/
def encipherField (field : String) : EStateM Fault (Option KeyStream) String
  | none => .error .noKey none
  | some keys =>
    match KeyStream.encipher field keys with
    | .ok text keys => .ok text (some keys)
    | .error fault keys => .error fault (some keys)

/-- Deciphers the fields at the listed positions, one after the other. -/
def decipherFields : List Nat → Record → EStateM Cause (Option KeyStream) Record
  | [], fields, keys => .ok fields keys
  | i :: indices, fields, keys =>
    match fields[i]? with
    | none => .error (.missingField i fields.length) keys
    | some field =>
      match decipherField field keys with
      | .ok text keys => decipherFields indices (fields.set i text) keys
      | .error fault keys => .error (.cipher fault) keys

/-- Enciphers the fields at the listed positions, one after the other. -/
def encipherFields : List Nat → Record → EStateM Fault (Option KeyStream) Record
  | [], fields, keys => .ok fields keys
  | i :: indices, fields, keys =>
    match fields[i]? with
    | none => encipherFields indices fields keys
    | some field =>
      match encipherField field keys with
      | .ok text keys => encipherFields indices (fields.set i text) keys
      | .error fault keys => .error fault keys

theorem Writing.encipherAt_eq (indices : List Nat) (fields : Record) (w : Writing) :
    encipherAt indices fields w =
      match encipherFields indices fields w.keys with
      | .ok fields keys => .ok fields { w with keys }
      | .error fault keys => .error fault { w with keys } := by
  induction indices generalizing fields w with
  | nil => rfl
  | cons i indices ih =>
    rw [encipherAt, encipherFields]
    -- a position behind the record is passed over by the writer
    cases hi : fields[i]? with
    | none => exact ih fields w
    | some field =>
      dsimp only
      change EStateM.bind (encipher field) _ w = _
      rw [EStateM.bind, encipher, encipherField.eq_def]
      cases hkeys : w.keys with
      | none => simp [← hkeys]
      | some keys =>
        dsimp only
        cases KeyStream.encipher field keys with
        | ok text keys => exact ih _ _
        | error fault keys => rfl

/-- Writing a record: its selected fields are enciphered, and the line is put behind the others. -/
theorem Writing.line_eq (selection : Selection) (fields : Record) (w : Writing) :
    line selection fields w =
      match encipherFields (selection.indices fields.length) fields w.keys with
      | .ok out keys => .ok () ⟨w.lines.push (String.intercalate " " out), keys⟩
      | .error fault keys => .error fault { w with keys } := by
  rw [line]
  -- only the key stream is changed before the line is put behind the others
  change EStateM.bind (encipherAt _ fields) _ w = _
  rw [EStateM.bind, encipherAt_eq]
  cases encipherFields (selection.indices fields.length) fields w.keys <;> rfl

/-! ### What enciphering leaves alone -/

theorem encipherField_eq_ok {field text : String} {keys keys' : Option KeyStream}
    (h : encipherField field keys = .ok text keys') :
    ∃ ks ks', keys = some ks ∧ keys' = some ks' ∧ KeyStream.encipher field ks = .ok text ks' := by
  cases keys with
  -- without a key stream nothing is enciphered
  | none => exact absurd h (by simp [encipherField])
  | some ks =>
    rw [encipherField] at h
    cases hks : KeyStream.encipher field ks with
    | ok text' ks' =>
      rw [hks] at h
      obtain ⟨rfl, rfl⟩ := EStateM.Result.ok.inj h
      exact ⟨ks, ks', rfl, rfl, hks⟩
    | error fault ks' =>
      rw [hks] at h
      exact absurd h error_ne_ok

theorem decipherField_of_encipherField {field text : String} {keys keys' : Option KeyStream}
    (h : encipherField field keys = .ok text keys') :
    decipherField text keys = .ok field keys' := by
  obtain ⟨ks, ks', rfl, rfl, hks⟩ := encipherField_eq_ok h
  rw [decipherField, decipher_of_encipher hks]

/-- One step of enciphering inside the record: the field at the position gives way to what is
written for it. -/
theorem encipherFields_cons_eq_ok {i : Nat} {indices : List Nat} {fields out : Record}
    {keys keys' : Option KeyStream} (hi : i < fields.length)
    (h : encipherFields (i :: indices) fields keys = .ok out keys') :
    ∃ text keys₁, encipherField fields[i] keys = .ok text keys₁ ∧
      encipherFields indices (fields.set i text) keys₁ = .ok out keys' := by
  rw [encipherFields, List.getElem?_eq_getElem hi] at h
  dsimp only at h
  cases hfield : encipherField fields[i] keys with
  | ok text keys₁ =>
    rw [hfield] at h
    exact ⟨text, keys₁, rfl, h⟩
  | error fault keys₁ =>
    rw [hfield] at h
    exact absurd h error_ne_ok

theorem length_of_encipherFields {indices : List Nat} {fields out : Record}
    {keys keys' : Option KeyStream} (hlt : ∀ i ∈ indices, i < fields.length)
    (h : encipherFields indices fields keys = .ok out keys') : out.length = fields.length := by
  induction indices generalizing fields keys with
  | nil =>
    obtain ⟨rfl, -⟩ := EStateM.Result.ok.inj h
    rfl
  | cons i indices ih =>
    obtain ⟨text, keys₁, -, hrest⟩ := encipherFields_cons_eq_ok (hlt i List.mem_cons_self) h
    have hlen : (fields.set i text).length = fields.length := List.length_set
    rw [ih (fun j hj => hlen ▸ hlt j (List.mem_cons_of_mem _ hj)) hrest, hlen]

/-- Fields that are not selected stay as they are. -/
theorem getElem?_of_encipherFields {indices : List Nat} {fields out : Record}
    {keys keys' : Option KeyStream} (hlt : ∀ i ∈ indices, i < fields.length)
    (h : encipherFields indices fields keys = .ok out keys') {j : Nat} (hj : j ∉ indices) :
    out[j]? = fields[j]? := by
  induction indices generalizing fields keys with
  | nil =>
    obtain ⟨rfl, -⟩ := EStateM.Result.ok.inj h
    rfl
  | cons i indices ih =>
    obtain ⟨text, keys₁, -, hrest⟩ := encipherFields_cons_eq_ok (hlt i List.mem_cons_self) h
    have hlen : (fields.set i text).length = fields.length := List.length_set
    -- the first change is made elsewhere, and so are the others
    have hij : i ≠ j := fun heq => hj (heq ▸ List.mem_cons_self)
    rw [ih (fun k hk => hlen ▸ hlt k (List.mem_cons_of_mem _ hk)) hrest
      (fun hmem => hj (List.mem_cons_of_mem _ hmem)), List.getElem?_set_ne hij]

/-- A record of words stays a record of words. -/
theorem isWord_of_encipherFields {indices : List Nat} {fields out : Record}
    {keys keys' : Option KeyStream} (hlt : ∀ i ∈ indices, i < fields.length)
    (hwords : ∀ f ∈ fields, IsWord f)
    (h : encipherFields indices fields keys = .ok out keys') : ∀ f ∈ out, IsWord f := by
  induction indices generalizing fields keys with
  | nil =>
    obtain ⟨rfl, -⟩ := EStateM.Result.ok.inj h
    exact hwords
  | cons i indices ih =>
    have hi := hlt i List.mem_cons_self
    obtain ⟨text, keys₁, hfield, hrest⟩ := encipherFields_cons_eq_ok hi h
    have hlen : (fields.set i text).length = fields.length := List.length_set
    obtain ⟨ks, ks', -, -, hks⟩ := encipherField_eq_ok hfield
    have htext : IsWord text := isWord_of_encipher (hwords _ (List.getElem_mem hi)) hks
    refine ih (fun j hj => hlen ▸ hlt j (List.mem_cons_of_mem _ hj)) (fun f hf => ?_) hrest
    -- a field is an old one or the one just written
    rcases List.mem_or_eq_of_mem_set hf with hf | rfl
    · exact hwords f hf
    · exact htext

/-! ### The round trip -/

/-- The induction behind the round trip. The record `now` that is being deciphered agrees with the
enciphered one at the positions that are still to come; those it takes back to the plain fields. -/
theorem decipherFields_aux {indices : List Nat} {fields out now : Record}
    {keys keys' : Option KeyStream} (hnodup : indices.Nodup)
    (hlt : ∀ i ∈ indices, i < fields.length) (hlen : now.length = fields.length)
    (hnow : ∀ i ∈ indices, now[i]? = out[i]?)
    (h : encipherFields indices fields keys = .ok out keys') :
    ∃ plain, decipherFields indices now keys = .ok plain keys' ∧ plain.length = now.length ∧
      ∀ j, plain[j]? = if j ∈ indices then fields[j]? else now[j]? := by
  induction indices generalizing fields now keys with
  | nil =>
    obtain ⟨-, rfl⟩ := EStateM.Result.ok.inj h
    exact ⟨now, rfl, rfl, fun j => by simp⟩
  | cons i indices ih =>
    have ⟨hi, hnodup⟩ := List.nodup_cons.1 hnodup
    have hlti := hlt i List.mem_cons_self
    obtain ⟨text, keys₁, hfield, hrest⟩ := encipherFields_cons_eq_ok hlti h
    have hset : (fields.set i text).length = fields.length := List.length_set
    have hlt' : ∀ j ∈ indices, j < (fields.set i text).length :=
      fun j hj => hset ▸ hlt j (List.mem_cons_of_mem _ hj)
    -- the reader finds what the writer has put at the position
    have hfound : now[i]? = some text := by
      rw [hnow i List.mem_cons_self, getElem?_of_encipherFields hlt' hrest hi,
        List.getElem?_set_self hlti]
    -- no position comes twice, so those that are left are still as they were written
    have hother : ∀ j ∈ indices, i ≠ j := fun j hj heq => hi (heq ▸ hj)
    have hnow' : ∀ j ∈ indices, (now.set i fields[i])[j]? = out[j]? := fun j hj => by
      rw [List.getElem?_set_ne (hother j hj), hnow j (List.mem_cons_of_mem _ hj)]
    obtain ⟨plain, hplain, hplain_len, hplain_get⟩ :=
      ih hnodup hlt' (by rw [List.length_set, hlen, hset]) hnow' hrest
    refine ⟨plain, ?_, by rw [hplain_len, List.length_set], fun j => ?_⟩
    · rw [decipherFields, hfound]
      dsimp only
      rw [decipherField_of_encipherField hfield]
      exact hplain
    · rw [hplain_get j]
      by_cases hji : i = j
      · subst hji
        rw [if_neg hi, if_pos List.mem_cons_self, List.getElem?_set_self (hlen ▸ hlti),
          List.getElem?_eq_getElem hlti]
      · simp [List.getElem?_set_ne hji, Ne.symm hji]

/-- **The round trip of a record.** Deciphering at the positions at which a record was enciphered
gives the record back and leaves the key stream where enciphering left it. -/
theorem decipherFields_of_encipherFields {indices : List Nat} {fields out : Record}
    {keys keys' : Option KeyStream} (hnodup : indices.Nodup)
    (hlt : ∀ i ∈ indices, i < fields.length)
    (h : encipherFields indices fields keys = .ok out keys') :
    decipherFields indices out keys = .ok fields keys' := by
  obtain ⟨plain, hplain, -, hget⟩ := decipherFields_aux hnodup hlt
    (length_of_encipherFields hlt h) (fun _ _ => rfl) h
  have : plain = fields := List.ext_getElem? fun j => by
    rw [hget j]
    split
    · rfl
    · -- the writer has not touched the other fields either
      next hj => exact getElem?_of_encipherFields hlt h hj
  rw [hplain, this]

/-- Fields of graphic characters can be enciphered once there is a key stream. -/
theorem exists_encipherFields {indices : List Nat} {fields : Record}
    (h : ∀ i ∈ indices, ∀ f ∈ fields[i]?, ∀ c ∈ f.toList, isGraphic c) (hnodup : indices.Nodup)
    (ks : KeyStream) : ∃ out ks', encipherFields indices fields (some ks) = .ok out (some ks') := by
  induction indices generalizing fields ks with
  | nil => exact ⟨fields, ks, rfl⟩
  | cons i indices ih =>
    have ⟨hi, hnodup⟩ := List.nodup_cons.1 hnodup
    rw [encipherFields]
    cases hget : fields[i]? with
    | none => exact ih (fun j hj => h j (List.mem_cons_of_mem _ hj)) hnodup ks
    | some field =>
      obtain ⟨text, ks₁, hks₁⟩ := exists_encipher (h i List.mem_cons_self field hget) ks
      dsimp only
      rw [encipherField, hks₁]
      -- the fields at the positions that are left have not been changed
      refine ih (fun j hj f hf => ?_) hnodup ks₁
      have hij : i ≠ j := fun heq => hi (heq ▸ hj)
      rw [List.getElem?_set_ne hij] at hf
      exact h j (List.mem_cons_of_mem _ hj) f hf

/-! ### Selections -/

/-- What a writer and a reader have to agree on about a selection: listed positions are distinct and
inside the record; a selection of all but some fields is always of this kind. -/
def Selection.Fits : Selection → Nat → Prop
  | .only indices, fields => indices.Nodup ∧ ∀ i ∈ indices, i < fields
  | .allBut _, _ => True

instance (selection : Selection) (fields : Nat) : Decidable (selection.Fits fields) :=
  match selection with
  | .only _ => inferInstanceAs (Decidable (_ ∧ _))
  | .allBut _ => inferInstanceAs (Decidable True)

theorem Selection.Fits.indices_nodup_lt {selection : Selection} {n : Nat} (h : selection.Fits n) :
    (selection.indices n).Nodup ∧ ∀ i ∈ selection.indices n, i < n := by
  cases selection with
  | only indices => exact h
  | allBut indices =>
    refine ⟨List.nodup_range.filter _, fun i hi => ?_⟩
    exact List.mem_range.1 (List.mem_filter.1 hi).1

end ChipAtlas
