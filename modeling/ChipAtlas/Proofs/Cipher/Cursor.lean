import ChipAtlas.Proofs.Cipher.Canonical

/-!
# How far the cursor goes

A text falls into parts, and each part takes one step of the cursor: in a text that is deciphered,
an ASCII character, or an escape mark and the ASCII character behind it; in a text that is
enciphered, a graphic character. A part stands for one character of the plaintext, however long it
is itself. The work stops where no part begins. That costs no step, except at an escape mark, which
takes its step before the character behind it is looked at.

The parts are told once for both directions (`Direction.Part`, `Direction.Breaks`); the rest is
induction on the parts of a text (`Direction.Passes`).

* `Direction.runChars_eq_ok`, `Direction.runChars_eq_error` — a text goes through if it consists of
  parts, and stops behind its last part otherwise;
* `Direction.Passes.eq_moved` — the cursor goes as far as the plaintext is long;
* `Direction.run_rolls` — texts one behind the other, from any state of the key stream.
-/

namespace ChipAtlas.Cipher

open ChipAtlas.Stateful

/-! ### Steps of the cursor -/

namespace KeyStream

/-- The key stream a number of steps further. -/
def moved (ks : KeyStream) (steps : Nat) : KeyStream :=
  { ks with
    cursor := (ks.cursor + steps) % ks.key.length
    cursor_lt := Nat.mod_lt _ (Nat.zero_lt_of_lt ks.cursor_lt) }

@[simp] theorem key_moved (ks : KeyStream) (steps : Nat) : (ks.moved steps).key = ks.key := rfl

theorem advance_eq_moved (ks : KeyStream) : ks.advance = ks.moved 1 := rfl

@[simp] theorem moved_zero (ks : KeyStream) : ks.moved 0 = ks := by
  obtain ⟨key, cursor, cursor_lt, ascii⟩ := ks
  simp only [moved, Nat.add_zero, Nat.mod_eq_of_lt cursor_lt]

@[simp] theorem moved_moved (ks : KeyStream) (m n : Nat) :
    (ks.moved m).moved n = ks.moved (m + n) := by
  simp only [moved, Nat.mod_add_mod, Nat.add_assoc]

end KeyStream

/-! ### Parts of a text -/

/-- What a key stream is used for. -/
inductive Direction where
  | deciphering
  | enciphering
  deriving DecidableEq, Repr

namespace Direction

/-- The work on one text. -/
def run : Direction → String → Ciphering String
  | deciphering => KeyStream.decipher
  | enciphering => KeyStream.encipher

/-- The work on a run of characters. -/
def runChars : Direction → List Char → Ciphering (List Char)
  | deciphering => KeyStream.decipherChars
  | enciphering => KeyStream.encipherChars

/-- The plaintext, among what a direction takes and what it gives. -/
def plaintext {α : Type} : Direction → α → α → α
  | deciphering, _, given => given
  | enciphering, taken, _ => taken

/-- What takes one step of the cursor, and what it gives under a key symbol. -/
inductive Part : Direction → Char → List Char → List Char → Prop
  | substitute {k c : Char} (ascii : isAscii c) (plain : c ≠ escapeMark) :
      Part deciphering k [c] [shift c k]
  | escaped {k c : Char} (ascii : isAscii c) : Part deciphering k [escapeMark, c] [c]
  | written {k c : Char} (graphic : isGraphic c) : Part enciphering k [c] (KeyStream.cipherText k c)

/-- A text that does not begin with a part: its fault, and the steps taken before the fault is
noticed. These are none, or one for an escape mark with nothing, or nothing in ASCII, behind it. -/
inductive Breaks : Direction → List Char → Fault → Nat → Prop
  | foreign {c : Char} {rest : List Char} (nonAscii : ¬ isAscii c) :
      Breaks deciphering (c :: rest) (.nonAscii (leadByte c)) 0
  | dangling : Breaks deciphering [escapeMark] .danglingEscape 1
  | foreignEscaped {c : Char} {rest : List Char} (nonAscii : ¬ isAscii c) :
      Breaks deciphering (escapeMark :: c :: rest) (.nonAscii (leadByte c)) 1
  | unwritable {c : Char} {rest : List Char} (nonGraphic : ¬ isGraphic c) :
      Breaks enciphering (c :: rest) (.unencodable (leadByte c)) 0

/-- A text that consists of parts: what it gives from a key stream, and the key stream behind it. -/
inductive Passes (way : Direction) : KeyStream → List Char → List Char → KeyStream → Prop
  | nil (ks : KeyStream) : Passes way ks [] [] ks
  | cons {ks ks' : KeyStream} {part out cs outs : List Char} (first : Part way ks.symbol part out)
      (others : Passes way ks.advance cs outs ks') : Passes way ks (part ++ cs) (out ++ outs) ks'

variable {way : Direction} {ks ks' : KeyStream} {part out cs : List Char} {k : Char} {fault : Fault}
  {extra : Nat}

theorem part_or_breaks (way : Direction) (k : Char) (cs : List Char) :
    cs = [] ∨ (∃ part out rest, Part way k part out ∧ cs = part ++ rest) ∨
      ∃ fault extra, Breaks way cs fault extra := by
  cases cs with
  | nil => exact .inl rfl
  | cons c rest =>
    refine .inr ?_
    cases way with
    | enciphering =>
      by_cases hc : isGraphic c
      · exact .inl ⟨[c], _, rest, .written hc, rfl⟩
      · exact .inr ⟨_, _, .unwritable hc⟩
    | deciphering =>
      by_cases hc : isAscii c
      · by_cases hmark : c = escapeMark
        · subst hmark
          -- what stands behind the mark decides
          cases rest with
          | nil => exact .inr ⟨_, _, .dangling⟩
          | cons literal rest =>
            by_cases hliteral : isAscii literal
            · exact .inl ⟨[escapeMark, literal], _, rest, .escaped hliteral, rfl⟩
            · exact .inr ⟨_, _, .foreignEscaped hliteral⟩
        · exact .inl ⟨[c], _, rest, .substitute hc hmark, rfl⟩
      · exact .inr ⟨_, _, .foreign hc⟩

theorem Part.ne_nil (h : Part way k part out) : part ≠ [] := by
  cases h <;> exact List.cons_ne_nil _ _

/-- A part takes one step, whatever follows it. -/
theorem Part.runChars_append (h : Part way ks.symbol part out) (rest : List Char) :
    way.runChars (part ++ rest) ks = ((out ++ ·) <$> way.runChars rest) ks.advance := by
  cases h with
  | substitute ascii plain => exact KeyStream.decipherChars_cons ascii plain rest ks
  | escaped ascii => exact KeyStream.decipherChars_escape ascii rest ks
  | written graphic => exact KeyStream.encipherChars_cons graphic rest ks

theorem Breaks.runChars_eq (h : Breaks way cs fault extra) (ks : KeyStream) :
    way.runChars cs ks = .error fault (ks.moved extra) := by
  cases h with
  | foreign nonAscii =>
    rw [KeyStream.moved_zero]
    show KeyStream.decipherChars _ ks = _
    rw [KeyStream.decipherChars.eq_def]
    simp only [if_neg nonAscii]
    rfl
  | dangling =>
    show KeyStream.decipherChars _ ks = _
    rw [KeyStream.decipherChars.eq_def]
    rfl
  | foreignEscaped nonAscii =>
    show KeyStream.decipherChars _ ks = _
    rw [KeyStream.decipherChars.eq_def]
    simp only [if_true, if_neg nonAscii]
    rfl
  | unwritable nonGraphic =>
    rw [KeyStream.moved_zero]
    show KeyStream.encipherChars _ ks = _
    rw [KeyStream.encipherChars, if_neg nonGraphic]
    rfl

/-! ### Runs of characters -/

/-- **What is behind a text that goes through** is worked on as it would be alone, from the key
stream behind this text. -/
theorem Passes.runChars_append (h : Passes way ks cs out ks') (rest : List Char) :
    way.runChars (cs ++ rest) ks = ((out ++ ·) <$> way.runChars rest) ks' := by
  induction h with
  | nil ks =>
    cases hrest : way.runChars rest ks with
    | ok given ks' => rw [map_of_ok hrest]; exact hrest
    | error fault ks' => rw [map_of_error hrest]; exact hrest
  | @cons ks ks' part out cs outs first others ih =>
    rw [List.append_assoc, first.runChars_append]
    cases hrest : way.runChars rest ks' with
    | ok given ks'' =>
      rw [map_of_ok hrest] at ih ⊢
      rw [map_of_ok ih, List.append_assoc]
    | error fault ks'' =>
      rw [map_of_error hrest] at ih ⊢
      exact map_of_error ih

/-- Every text goes through up to its end, or to a place where no part begins. -/
theorem exists_passes (way : Direction) (cs : List Char) (ks : KeyStream) :
    ∃ done rest out ks', cs = done ++ rest ∧ Passes way ks done out ks' ∧
      (rest = [] ∨ ∃ fault extra, Breaks way rest fault extra) := by
  rcases part_or_breaks way ks.symbol cs with rfl | ⟨part, out, rest, hpart, hsplit⟩ | hbreaks
  · exact ⟨[], [], [], ks, rfl, .nil ks, .inl rfl⟩
  · -- a part is not empty, so what follows it is shorter
    have hlt : rest.length < cs.length := by
      have := List.length_pos_of_ne_nil hpart.ne_nil
      rw [hsplit, List.length_append]
      omega
    obtain ⟨done, rest', outs, ks', rfl, hdone, hrest⟩ := exists_passes way rest ks.advance
    refine ⟨part ++ done, rest', out ++ outs, ks', ?_, .cons hpart hdone, hrest⟩
    rw [hsplit, List.append_assoc]
  · exact ⟨[], cs, [], ks, rfl, .nil ks, .inr hbreaks⟩
termination_by cs.length

theorem Passes.runChars_eq (h : Passes way ks cs out ks') : way.runChars cs ks = .ok out ks' := by
  have hend : way.runChars [] ks' = .ok [] ks' := by cases way <;> rfl
  have := h.runChars_append []
  rwa [map_of_ok hend, List.append_nil, List.append_nil] at this

theorem Passes.runChars_append_breaks {rest : List Char} (h : Passes way ks cs out ks')
    (hrest : Breaks way rest fault extra) :
    way.runChars (cs ++ rest) ks = .error fault (ks'.moved extra) := by
  rw [h.runChars_append, map_of_error (hrest.runChars_eq ks')]

/-- **Success.** A text goes through exactly if it consists of parts. -/
theorem runChars_eq_ok : way.runChars cs ks = .ok out ks' ↔ Passes way ks cs out ks' := by
  refine ⟨fun h => ?_, Passes.runChars_eq⟩
  obtain ⟨done, rest, out', ks₁, rfl, hdone, rfl | ⟨fault, extra, hrest⟩⟩ := exists_passes way cs ks
  · rw [List.append_nil] at h ⊢
    obtain ⟨rfl, rfl⟩ := EStateM.Result.ok.inj (hdone.runChars_eq.symm.trans h)
    exact hdone
  · rw [hdone.runChars_append_breaks hrest] at h
    exact absurd h error_ne_ok

/-- **Failure.** A text is stopped exactly if no part begins behind some of its parts. -/
theorem runChars_eq_error : way.runChars cs ks = .error fault ks' ↔
    ∃ done rest out ks₁ extra, cs = done ++ rest ∧ Passes way ks done out ks₁ ∧
      Breaks way rest fault extra ∧ ks' = ks₁.moved extra := by
  refine ⟨fun h => ?_, ?_⟩
  · obtain ⟨done, rest, out, ks₁, rfl, hdone, rfl | ⟨fault', extra, hrest⟩⟩ :=
      exists_passes way cs ks
    · rw [List.append_nil, hdone.runChars_eq] at h
      exact absurd h ok_ne_error
    · rw [hdone.runChars_append_breaks hrest] at h
      obtain ⟨rfl, rfl⟩ := EStateM.Result.error.inj h
      exact ⟨done, rest, out, ks₁, extra, rfl, hdone, hrest, rfl⟩
  · rintro ⟨done, rest, out, ks₁, extra, rfl, hdone, hrest, rfl⟩
    exact hdone.runChars_append_breaks hrest

/-! ### The length of the plaintext -/

/-- The substitution stays in ASCII. -/
theorem isAscii_shift {c k : Char} (hc : isAscii c) (hk : isAscii k) : isAscii (shift c k) := by
  simp only [isAscii, decide_eq_true_eq] at hc hk ⊢
  unfold shift wrap
  split
  · decide
  · dsimp only
    rw [toNat_ofNat_of_lt (by omega)]
    omega

/-- A character in ASCII is one byte long. -/
theorem utf8ByteSize_singleton {c : Char} (hc : isAscii c) :
    (String.ofList [c]).utf8ByteSize = 1 := by
  simp only [isAscii, decide_eq_true_eq] at hc
  rw [← String.singleton_eq_ofList, String.utf8ByteSize_singleton, Char.utf8Size_eq_one_iff,
    UInt32.le_iff_toNat_le]
  exact Nat.le_of_lt_succ hc

/-- A part stands for one byte of the plaintext. -/
theorem Part.utf8ByteSize_plaintext (h : Part way k part out) (hk : isAscii k) :
    (String.ofList (way.plaintext part out)).utf8ByteSize = 1 := by
  cases h with
  | substitute ascii plain => exact utf8ByteSize_singleton (isAscii_shift ascii hk)
  | escaped ascii => exact utf8ByteSize_singleton ascii
  | written graphic => exact utf8ByteSize_singleton (isAscii_of_isGraphic graphic)

theorem plaintext_append (way : Direction) (part out cs outs : List Char) :
    way.plaintext (part ++ cs) (out ++ outs) = way.plaintext part out ++ way.plaintext cs outs := by
  cases way <;> rfl

theorem plaintext_ofList (way : Direction) (field given : String) :
    way.plaintext field given = String.ofList (way.plaintext field.toList given.toList) := by
  cases way <;> exact String.ofList_toList.symm

/-- **The cursor goes as far as the plaintext is long.** -/
theorem Passes.eq_moved (h : Passes way ks cs out ks') :
    ks' = ks.moved (String.ofList (way.plaintext cs out)).utf8ByteSize := by
  induction h with
  | nil ks => cases way <;> exact ks.moved_zero.symm
  | @cons ks ks' part out cs outs first others ih =>
    rw [plaintext_append, String.ofList_append, String.utf8ByteSize_append,
      first.utf8ByteSize_plaintext ks.isAscii_symbol, ← KeyStream.moved_moved,
      ← KeyStream.advance_eq_moved]
    exact ih

/-! ### Texts -/

section Texts

variable {field given a b : String}

theorem run_eq (way : Direction) (field : String) :
    way.run field = String.ofList <$> way.runChars field.toList := by
  cases way <;> rfl

theorem run_eq_ok : way.run field ks = .ok given ks' ↔
    Passes way ks field.toList given.toList ks' := by
  rw [run_eq, ← runChars_eq_ok]
  refine ⟨fun h => ?_, fun h => ?_⟩
  · obtain ⟨out, hout, rfl⟩ := exists_of_map_eq_ok h
    rwa [String.toList_ofList]
  · rw [map_of_ok h, String.ofList_toList]

theorem run_eq_error_iff : way.run field ks = .error fault ks' ↔
    way.runChars field.toList ks = .error fault ks' := by
  rw [run_eq]
  cases hrun : way.runChars field.toList ks with
  | ok out ks₁ =>
    rw [map_of_ok hrun]
    exact ⟨fun h => absurd h ok_ne_error, fun h => absurd h ok_ne_error⟩
  | error fault' ks₁ =>
    rw [map_of_error hrun]
    simp only [EStateM.Result.error.injEq]

/-- **One text behind another.** If the first goes through, the second is worked on as it would be
alone, from where the first has left the cursor. -/
theorem run_append (h : way.run a ks = .ok given ks') :
    way.run (a ++ b) ks =
      match way.run b ks' with
      | .ok more ks'' => .ok (given ++ more) ks''
      | .error fault ks'' => .error fault ks'' := by
  have happend := (run_eq_ok.1 h).runChars_append b.toList
  rw [← String.toList_append] at happend
  cases hb : way.run b ks' with
  | ok more ks'' =>
    rw [map_of_ok (runChars_eq_ok.2 (run_eq_ok.1 hb)), runChars_eq_ok, ← String.toList_append]
      at happend
    exact run_eq_ok.2 happend
  | error fault ks'' =>
    rw [map_of_error (run_eq_error_iff.1 hb)] at happend
    exact run_eq_error_iff.2 happend

/-- After a success, the cursor has gone as far as the plaintext is long. -/
theorem eq_moved_of_run (h : way.run field ks = .ok given ks') :
    ks' = ks.moved (way.plaintext field given).utf8ByteSize := by
  rw [plaintext_ofList]
  exact (run_eq_ok.1 h).eq_moved

/-- After a failure, the cursor has gone as far as the completed plaintext is long, and over an
escape mark that was not completed. -/
theorem run_eq_error : way.run field ks = .error fault ks' ↔
    ∃ done rest given ks₁ extra, field = done ++ rest ∧ way.run done ks = .ok given ks₁ ∧
      Breaks way rest.toList fault extra ∧
      ks' = ks.moved ((way.plaintext done given).utf8ByteSize + extra) := by
  rw [run_eq_error_iff, runChars_eq_error]
  refine ⟨?_, ?_⟩
  · rintro ⟨done, rest, out, ks₁, extra, hsplit, hdone, hrest, rfl⟩
    have hrun : way.run (String.ofList done) ks = .ok (String.ofList out) ks₁ := by
      rw [run_eq_ok, String.toList_ofList, String.toList_ofList]
      exact hdone
    refine ⟨String.ofList done, String.ofList rest, String.ofList out, ks₁, extra, ?_, hrun, ?_, ?_⟩
    · rw [← String.ofList_append, ← hsplit, String.ofList_toList]
    · rwa [String.toList_ofList]
    · rw [← KeyStream.moved_moved, ← eq_moved_of_run hrun]
  · rintro ⟨done, rest, given, ks₁, extra, rfl, hdone, hrest, rfl⟩
    refine ⟨done.toList, rest.toList, given.toList, ks₁, extra, String.toList_append,
      run_eq_ok.1 hdone, hrest, ?_⟩
    rw [← KeyStream.moved_moved, ← eq_moved_of_run hdone]

end Texts

/-! ### Calls one after the other -/

/-- The steps of one call, by what becomes of it. -/
inductive Takes (way : Direction) (ks : KeyStream) : String → Nat → Prop
  | whole {field given : String} {ks' : KeyStream} (run : way.run field ks = .ok given ks') :
      Takes way ks field (way.plaintext field given).utf8ByteSize
  | cut {done rest given : String} {ks' : KeyStream} {fault : Fault} {extra : Nat}
      (run : way.run done ks = .ok given ks') (breaks : Breaks way rest.toList fault extra) :
      Takes way ks (done ++ rest) ((way.plaintext done given).utf8ByteSize + extra)

/-- The key stream after a row of calls. A call that fails does not keep the next one from being
made. -/
def after (ks : KeyStream) (calls : List (Direction × String)) : KeyStream :=
  calls.foldl (fun ks call => endState (call.1.run call.2 ks)) ks

/-- The steps of a row of calls, each made from where the call before it has left the cursor. -/
inductive TakeAll : KeyStream → List (Direction × String) → Nat → Prop
  | nil (ks : KeyStream) : TakeAll ks [] 0
  | cons {ks : KeyStream} {way : Direction} {field : String} {calls : List (Direction × String)}
      {first others : Nat} (call : Takes way ks field first)
      (rest : TakeAll (endState (way.run field ks)) calls others) :
      TakeAll ks ((way, field) :: calls) (first + others)

/-- One call takes its steps, whether it fails or not. -/
theorem exists_takes (way : Direction) (ks : KeyStream) (field : String) :
    ∃ steps, Takes way ks field steps ∧ endState (way.run field ks) = ks.moved steps := by
  cases hrun : way.run field ks with
  | ok given ks' => exact ⟨_, .whole hrun, eq_moved_of_run hrun⟩
  | error fault ks' =>
    obtain ⟨done, rest, given, ks₁, extra, rfl, hdone, hrest, hmoved⟩ := run_eq_error.1 hrun
    exact ⟨_, .cut hdone hrest, hmoved⟩

/-- A row of calls takes the steps of its calls together. -/
theorem exists_takeAll (ks : KeyStream) (calls : List (Direction × String)) :
    ∃ steps, TakeAll ks calls steps ∧ after ks calls = ks.moved steps := by
  induction calls generalizing ks with
  | nil => exact ⟨0, .nil ks, ks.moved_zero.symm⟩
  | cons call calls ih =>
    obtain ⟨way, field⟩ := call
    obtain ⟨first, htakes, hfirst⟩ := exists_takes way ks field
    obtain ⟨others, hothers, hafter⟩ := ih (endState (way.run field ks))
    refine ⟨first + others, .cons htakes hothers, ?_⟩
    rw [← KeyStream.moved_moved, ← hfirst, ← hafter]
    rfl

/-- **The cursor rolls over the texts of a file.** Two texts one behind the other are worked on like
one text, as far as the first goes through. A success moves the cursor by the length of its
plaintext. A failure moves it by the length of the plaintext that was completed, and by one step
more exactly if it stops behind an escape mark. After any row of calls, failed ones among them, the
cursor is the sum of their steps, counted round the key. -/
theorem run_rolls (way : Direction) (ks : KeyStream) :
    (∀ (a b given : String) (ks' : KeyStream), way.run a ks = .ok given ks' →
      way.run (a ++ b) ks =
        match way.run b ks' with
        | .ok more ks'' => .ok (given ++ more) ks''
        | .error fault ks'' => .error fault ks'') ∧
    (∀ (field given : String) (ks' : KeyStream), way.run field ks = .ok given ks' →
      ks' = ks.moved (way.plaintext field given).utf8ByteSize) ∧
    (∀ (field : String) (fault : Fault) (ks' : KeyStream), way.run field ks = .error fault ks' ↔
      ∃ done rest given ks₁ extra, field = done ++ rest ∧ way.run done ks = .ok given ks₁ ∧
        Breaks way rest.toList fault extra ∧
        ks' = ks.moved ((way.plaintext done given).utf8ByteSize + extra)) ∧
    ∀ calls : List (Direction × String), (after ks calls).key = ks.key ∧
      (after ks calls).cursor < ks.key.length ∧
      ∃ steps, TakeAll ks calls steps ∧ after ks calls = ks.moved steps := by
  refine ⟨fun a b given ks' h => run_append h, fun field given ks' h => eq_moved_of_run h,
    fun field fault ks' => run_eq_error, fun calls => ?_⟩
  obtain ⟨steps, hsteps, hafter⟩ := exists_takeAll ks calls
  have hkey : (after ks calls).key = ks.key := by rw [hafter, KeyStream.key_moved]
  refine ⟨hkey, ?_, steps, hsteps, hafter⟩
  rw [← hkey]
  exact (after ks calls).cursor_lt

/-- A key stream at the start of its key. -/
def firstStream : KeyStream := KeyStream.innerStream.moved 3

theorem run_rolls_danglingEscape :
    deciphering.run ("!_" ++ "ab") firstStream = .ok ("_" ++ " q") (firstStream.moved 3) ∧
      deciphering.run "!_ab!" firstStream = .error .danglingEscape (firstStream.moved 4) ∧
      (after firstStream [(deciphering, "!_ab!"), (enciphering, "a b")]).cursor < 4 := by
  obtain ⟨happend, hmoved, hfault, hafter⟩ := run_rolls deciphering firstStream
  obtain ⟨ks, hfirst⟩ : ∃ ks, deciphering.run "!_" firstStream = .ok "_" ks := ⟨_, rfl⟩
  have hks : ks = firstStream.moved 1 := hmoved "!_" "_" ks hfirst
  have hmore : deciphering.run "ab" (firstStream.moved 1) = .ok " q" (firstStream.moved 3) := rfl
  refine ⟨?_, ?_, (hafter [(deciphering, "!_ab!"), (enciphering, "a b")]).2.1⟩
  · rw [happend "!_" "ab" "_" ks hfirst, hks, hmore]
  · -- the mark has nothing behind it, and its step is the fourth
    exact (hfault "!_ab!" .danglingEscape (firstStream.moved 4)).2
      ⟨"!_ab", "!", "_ q", firstStream.moved 3, 1, rfl, rfl, .dangling, rfl⟩

end Direction

end ChipAtlas.Cipher
