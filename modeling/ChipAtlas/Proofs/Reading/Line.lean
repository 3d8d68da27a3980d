import ChipAtlas.Proofs.Cipher.Fields
import ChipAtlas.Reading.Script

/-!
# One line of a reading

What taking a line does to a reading, said once. A line is taken off the unread lines and counted;
its selected fields move the key stream; the result goes into the dump. Nothing else of the reading
is looked at or changed.

* `Reading.line_text`, `Reading.line_unreadable`, `Reading.line_nil` — the three cases of the next
  line;
* `Reading.line_eq_ok` — everything that a successful line does;
* `Reading.search_eq` — a search is a line and, unless it stops, a search.
-/

namespace ChipAtlas

open Cipher (KeyStream)
open Stateful

/-- Writes a record into the dump, if there is one, and tells whether all of it went in. -/
def emitTo (dump : Option Dump) (fields : Record) : Option Dump × Bool :=
  match dump with
  | none => (none, true)
  | some d => ((d.write (dumpLine fields)).1, (d.write (dumpLine fields)).2)

namespace Reading

/-- A reading whose next line has been taken. -/
def taken (s : Reading) (rest : List Text.Line) : Reading :=
  { s with lines := rest, place := s.nextPlace }

@[simp] theorem taken_keys (s : Reading) (rest : List Text.Line) :
    (s.taken rest).keys = s.keys := rfl

/-! ### The parts of a line -/

theorem decipherAt_eq (indices : List Nat) (fields : Record) (s : Reading) :
    decipherAt indices fields s =
      match decipherFields indices fields s.keys with
      | .ok fields keys => .ok fields { s with keys }
      | .error cause keys => .error (.violation ⟨cause, s.place⟩) { s with keys } := by
  induction indices generalizing fields s with
  | nil => rfl
  | cons i indices ih =>
    rw [decipherAt, decipherFields]
    cases hi : fields[i]? with
    | none => rfl
    | some field =>
      dsimp only
      -- the key stream is all of the reading that deciphering one field works on
      change EStateM.bind (decipher field) _ s = _
      rw [EStateM.bind, decipher, decipherField.eq_def]
      cases hkeys : s.keys with
      | none => simp [refuse, ← hkeys]
      | some keys =>
        dsimp only
        cases KeyStream.decipher field keys with
        | ok text keys => exact ih _ _
        | error fault keys => rfl

theorem emit_of_complete {fields : Record} {s : Reading} (h : (emitTo s.dump fields).2 = true) :
    emit fields s = .ok () { s with dump := (emitTo s.dump fields).1 } := by
  rw [emit]
  cases hdump : s.dump with
  | none => simp [emitTo, ← hdump]
  | some dump =>
    rw [hdump, emitTo] at h
    dsimp only
    split
    · next hwrite => simp [emitTo, hwrite]
    · next hwrite => simp [hwrite] at h

theorem emit_of_incomplete {fields : Record} {s : Reading}
    (h : ¬ (emitTo s.dump fields).2 = true) :
    emit fields s =
      .error (.io ⟨.shortWrite, .nothing⟩) { s with dump := (emitTo s.dump fields).1 } := by
  rw [emit]
  cases hdump : s.dump with
  | none => simp [hdump, emitTo] at h
  | some dump =>
    rw [hdump, emitTo] at h
    dsimp only
    split
    · next hwrite => simp [hwrite] at h
    · next hwrite => simp [emitTo, hwrite]

/-! ### The next line -/

theorem line_nil {s : Reading} (h : s.lines = []) (selection : Selection) :
    line selection s = .error (.violation ⟨.unexpectedEnd, s.nextPlace⟩) (s.taken []) := by
  have : takeLine s = .error (.violation ⟨.unexpectedEnd, s.nextPlace⟩) (s.taken []) := by
    simp [takeLine, h, refuse, taken]
  exact bind_of_error this

theorem line_unreadable {s : Reading} {rest : List Text.Line} (h : s.lines = .unreadable :: rest)
    (selection : Selection) :
    line selection s = .error (.io ⟨.unreadableText, .nothing⟩) (s.taken rest) := by
  have : takeLine s = .error (.io ⟨.unreadableText, .nothing⟩) (s.taken rest) := by
    simp [takeLine, h, taken]
  exact bind_of_error this

/-- The line as a record, with the key stream behind it. -/
def deciphered (selection : Selection) (raw : String) :
    EStateM Cause (Option KeyStream) Record :=
  decipherFields (selection.indices (Text.wordsOf raw).length) (Text.wordsOf raw)

/-- **A line of text.** It is counted, its selected fields are deciphered, and it is dumped. -/
theorem line_text {s : Reading} {raw : String} {rest : List Text.Line}
    (h : s.lines = .text raw :: rest) (selection : Selection) :
    line selection s =
      match deciphered selection raw s.keys with
      | .error cause keys =>
        .error (.violation ⟨cause, s.nextPlace⟩) { s.taken rest with keys }
      | .ok fields keys =>
        if (emitTo s.dump fields).2 then
          .ok fields { s.taken rest with keys, dump := (emitTo s.dump fields).1 }
        else
          .error (.io ⟨.shortWrite, .nothing⟩)
            { s.taken rest with keys, dump := (emitTo s.dump fields).1 } := by
  have htake : takeLine s = .ok raw (s.taken rest) := by
    simp [takeLine, h, taken]
  -- the line has been taken; what is left is to decipher and to dump it
  refine (bind_of_ok htake).trans ?_
  change EStateM.bind (decipherAt _ _) _ (s.taken rest) = _
  rw [EStateM.bind, decipherAt_eq, deciphered, taken_keys]
  cases decipherFields (selection.indices (Text.wordsOf raw).length) (Text.wordsOf raw) s.keys with
  | error cause keys => rfl
  | ok fields keys =>
    dsimp only
    -- the line succeeds only if its record has gone into the dump as a whole
    by_cases hcomplete : (emitTo s.dump fields).2 = true
    · rw [if_pos hcomplete]
      exact bind_of_ok (emit_of_complete hcomplete)
    · rw [if_neg hcomplete]
      exact bind_of_error (emit_of_incomplete hcomplete)

/-- **Everything that a successful line does.** -/
theorem line_eq_ok {s s' : Reading} {selection : Selection} {fields : Record} :
    line selection s = .ok fields s' ↔
      ∃ raw rest keys, s.lines = .text raw :: rest ∧
        deciphered selection raw s.keys = .ok fields keys ∧
        (emitTo s.dump fields).2 = true ∧
        s' = { s.taken rest with keys, dump := (emitTo s.dump fields).1 } := by
  refine ⟨?_, ?_⟩
  · intro h
    -- there has to be a readable line
    cases hlines : s.lines with
    | nil =>
      rw [line_nil hlines] at h
      exact absurd h error_ne_ok
    | cons first rest =>
      cases first with
      | unreadable =>
        rw [line_unreadable hlines] at h
        exact absurd h error_ne_ok
      | text raw =>
        rw [line_text hlines] at h
        cases hd : deciphered selection raw s.keys with
        | error cause keys =>
          rw [hd] at h
          exact absurd h error_ne_ok
        | ok record keys =>
          rw [hd] at h
          dsimp only at h
          split at h
          · next hcomplete =>
            obtain ⟨rfl, rfl⟩ := EStateM.Result.ok.inj h
            exact ⟨raw, rest, keys, rfl, hd, hcomplete, rfl⟩
          · exact absurd h error_ne_ok
  · rintro ⟨raw, rest, keys, hlines, hd, hcomplete, rfl⟩
    rw [line_text hlines, hd]
    dsimp only
    rw [if_pos hcomplete]

/-- A successful line takes one line. -/
theorem tail_of_line {s s' : Reading} {selection : Selection} {fields : Record}
    (h : line selection s = .ok fields s') : s'.lines = s.lines.tail := by
  obtain ⟨raw, rest, keys, hlines, -, -, rfl⟩ := line_eq_ok.1 h
  rw [hlines]
  rfl

theorem length_of_decipherFields {indices : List Nat} {fields out : Record}
    {keys keys' : Option KeyStream} (h : decipherFields indices fields keys = .ok out keys') :
    out.length = fields.length := by
  induction indices generalizing fields keys with
  | nil =>
    obtain ⟨rfl, -⟩ := EStateM.Result.ok.inj h
    rfl
  | cons i indices ih =>
    rw [decipherFields] at h
    split at h
    · exact absurd h error_ne_ok
    · split at h
      · rw [ih h, List.length_set]
      · exact absurd h error_ne_ok

/-- Fields that have been deciphered are there. -/
theorem lt_length_of_decipherFields {indices : List Nat} {fields out : Record}
    {keys keys' : Option KeyStream} (h : decipherFields indices fields keys = .ok out keys') :
    ∀ i ∈ indices, i < fields.length := by
  induction indices generalizing fields keys with
  | nil => exact fun i hi => absurd hi List.not_mem_nil
  | cons i indices ih =>
    rw [decipherFields] at h
    split at h
    · exact absurd h error_ne_ok
    · next field hfield =>
      split at h
      · -- what is deciphered behind the first field leaves the number of fields as it is
        intro j hj
        rcases List.mem_cons.1 hj with rfl | hj
        · exact (List.getElem?_eq_some_iff.1 hfield).1
        · simpa using ih h j hj
      · exact absurd h error_ne_ok

/-- The selected fields of a line that has been taken are there. -/
theorem lt_length_of_line {s s' : Reading} {selection : Selection} {fields : Record}
    (h : line selection s = .ok fields s') :
    ∀ i ∈ selection.indices fields.length, i < fields.length := by
  obtain ⟨raw, rest, keys, -, hd, -, -⟩ := line_eq_ok.1 h
  rw [length_of_decipherFields hd]
  exact lt_length_of_decipherFields hd

/-! ### A look at the next line -/

theorem peekBlank_nil {s : Reading} (h : s.lines = []) :
    peekBlank s = .error (.violation ⟨.unexpectedEnd, s.nextPlace⟩) s := by
  simp only [peekBlank, h]

theorem peekBlank_unreadable {s : Reading} {rest : List Text.Line}
    (h : s.lines = .unreadable :: rest) :
    peekBlank s = .error (.io ⟨.unreadableText, .nothing⟩) (s.taken rest) := by
  have htake : takeLine s = .error (.io ⟨.unreadableText, .nothing⟩) (s.taken rest) := by
    simp [takeLine, h, taken]
  simp only [peekBlank, h]
  exact bind_of_error htake

theorem peekBlank_text {s : Reading} {raw : String} {rest : List Text.Line}
    (h : s.lines = .text raw :: rest) : peekBlank s = .ok (Text.isBlankLine raw) s := by
  simp only [peekBlank, h]

/-- A look at the next line tells whether the line, once taken, has no fields. -/
theorem peekBlank_of_line {s s' : Reading} {selection : Selection} {fields : Record}
    (h : line selection s = .ok fields s') : peekBlank s = .ok fields.isEmpty s := by
  obtain ⟨raw, rest, keys, hlines, hd, -, -⟩ := line_eq_ok.1 h
  -- deciphering keeps the number of the fields
  have hlen := length_of_decipherFields hd
  have hempty : fields.isEmpty = (Text.wordsOf raw).isEmpty := by
    rw [Bool.eq_iff_iff, List.isEmpty_iff_length_eq_zero, List.isEmpty_iff_length_eq_zero, hlen]
  rw [peekBlank_text hlines, Text.isBlankLine_eq, hempty]

/-- A look at a line takes nothing. -/
theorem eq_of_peekBlank {s s' : Reading} {blank : Bool} (h : peekBlank s = .ok blank s') :
    s = s' := by
  cases hlines : s.lines with
  | nil =>
    rw [peekBlank_nil hlines] at h
    exact absurd h error_ne_ok
  | cons first rest =>
    cases first with
    | unreadable =>
      rw [peekBlank_unreadable hlines] at h
      exact absurd h error_ne_ok
    | text raw =>
      rw [peekBlank_text hlines] at h
      exact (EStateM.Result.ok.inj h).2

/-! ### Lines in scripts -/

theorem run_fields (indices : List Nat) : (Script.fields indices).run = line (.only indices) :=
  bind_pure (line (.only indices))

theorem blankLine_eq_ok {s s' : Reading} :
    Script.blankLine.run s = .ok () s' ↔ line (.only []) s = .ok [] s' := by
  rw [Script.blankLine, Script.run_bind, bind_eq_ok, run_fields]
  refine ⟨?_, ?_⟩
  · rintro ⟨record, s₁, hline, h⟩
    split at h
    · next hempty =>
      obtain ⟨-, rfl⟩ := EStateM.Result.ok.inj h
      exact List.isEmpty_iff.1 hempty ▸ hline
    · exact absurd h error_ne_ok
  · intro h
    exact ⟨[], s', h, rfl⟩

/-! ### The search for a line -/

/-- The search for a line, its records numbered from the given number on. -/
def search (stop : Record → Bool) (record : Nat) : Read (List Record) := fun s =>
  scanLines stop s.lines record s

/-- **A search** is a line and, unless it stops, a search. The unread lines that bound it are always
the unread lines of the reading. -/
theorem search_eq (stop : Record → Bool) (record : Nat) :
    search stop record =
      (do
        setRecord record
        let fields ← line (.only [0])
        if stop fields then return [fields]
        else return fields :: (← search stop (record + 1)) : Read (List Record)) := by
  funext s
  rw [search]
  have hset : setRecord record s = .ok () { s with place := { s.place with record } } := rfl
  cases hlines : s.lines with
  | nil =>
    -- without a line, both searches end with the line that is missing
    have hline := line_nil (s := { s with place := { s.place with record } }) hlines (.only [0])
    rw [scanLines, bind_of_ok hset, bind_of_ok hset, bind_of_error hline, bind_of_error hline]
  | cons first rest =>
    rw [scanLines, bind_of_ok hset, bind_of_ok hset]
    cases hline : line (.only [0]) { s with place := { s.place with record } } with
    | error e s₁ => rw [bind_of_error hline, bind_of_error hline]
    | ok fields s₁ =>
      -- the lines behind the first are the ones that bound the search behind it
      have hrest : s₁.lines = rest := (tail_of_line hline).trans (congrArg List.tail hlines)
      rw [bind_of_ok hline, bind_of_ok hline]
      split
      · rfl
      · change EStateM.bind _ _ s₁ = EStateM.bind (search stop (record + 1)) _ s₁
        rw [EStateM.bind, EStateM.bind, search, hrest]

end Reading

end ChipAtlas
