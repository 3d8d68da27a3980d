import ChipAtlas.Proofs.Script.Walk

/-!
# Readings that show a row of calls

A reading shows a row of calls if each call, carried out in its turn, gives the record that the call
is about. What a script does on such a reading is what it does on the row:

* `Reading.simulates_walk` — a walk with a result or a refusal is what the reading comes to;
* `Reading.exists_walk_of_run` — a reading that accepts has shown a row of calls, and the script
  walks along all of it. This needs that the script looks at a line only if it takes the line next
  (`Script.Attentive`).

Neither the events nor the place, but for its line number, have a part in this. Two readings that
agree in everything else are told apart by no call (`Reading.Agrees`).
-/

namespace ChipAtlas

open Stateful

namespace Reading

/-! ### Readings that differ in their reports only -/

/-- The readings have the same lines, key stream and dump, and have asked for the same lines. -/
structure Agrees (s t : Reading) : Prop where
  lines_eq : s.lines = t.lines
  keys_eq : s.keys = t.keys
  dump_eq : s.dump = t.dump
  line_eq : s.place.line = t.place.line

theorem Agrees.refl (s : Reading) : s.Agrees s := ⟨rfl, rfl, rfl, rfl⟩

theorem Agrees.symm {s t : Reading} (h : s.Agrees t) : t.Agrees s :=
  ⟨h.lines_eq.symm, h.keys_eq.symm, h.dump_eq.symm, h.line_eq.symm⟩

theorem Agrees.trans {s t u : Reading} (h : s.Agrees t) (h' : t.Agrees u) : s.Agrees u :=
  ⟨h.lines_eq.trans h'.lines_eq, h.keys_eq.trans h'.keys_eq, h.dump_eq.trans h'.dump_eq,
    h.line_eq.trans h'.line_eq⟩

theorem agrees_record (s : Reading) (record : Nat) :
    s.Agrees { s with place := { s.place with record } } := ⟨rfl, rfl, rfl, rfl⟩

/-- Work that only reports: it succeeds, and leaves a reading that no call tells apart. -/
def Reports (r : Read Unit) : Prop := ∀ s, ∃ s', r s = .ok () s' ∧ s.Agrees s'

theorem reports_enter (part : Section) : Reports (enter part) := by
  intro s
  exact ⟨_, rfl, rfl, rfl, rfl, rfl⟩

theorem reports_setRecord (record : Nat) : Reports (setRecord record) := by
  intro s
  exact ⟨_, rfl, s.agrees_record record⟩

theorem reports_note (event : Event) : Reports (note event) := by
  intro s
  exact ⟨_, rfl, rfl, rfl, rfl, rfl⟩

theorem reports_noteLines (event : Nat → Event) :
    Reports (do note (event (← get).place.line)) := by
  intro s
  exact ⟨_, rfl, rfl, rfl, rfl, rfl⟩

theorem Agrees.line {s t s' : Reading} (h : s.Agrees t) {selection : Selection} {fields : Record}
    (hs : line selection s = .ok fields s') :
    ∃ t', Reading.line selection t = .ok fields t' ∧ s'.Agrees t' := by
  -- a line depends on the lines, the key stream and the dump, and these are the same
  obtain ⟨raw, rest, keys, hlines, hraw, hcomplete, rfl⟩ := line_eq_ok.1 hs
  refine ⟨_, line_eq_ok.2 ⟨raw, rest, keys, h.lines_eq ▸ hlines, h.keys_eq ▸ hraw,
    h.dump_eq ▸ hcomplete, rfl⟩, rfl, rfl, ?_, ?_⟩
  · exact congrArg (fun d => (emitTo d fields).1) h.dump_eq
  · exact congrArg (· + 1) h.line_eq

theorem setKey_eq_ok {s s' : Reading} {key : String} :
    setKey key s = .ok () s' ↔
      ∃ keys, Cipher.KeyStream.create key 0 = .ok keys ∧ s' = { s with keys := some keys } := by
  unfold setKey
  split
  · next keys hkeys =>
    refine ⟨?_, ?_⟩
    · intro h
      exact ⟨keys, hkeys, (EStateM.Result.ok.inj h).2.symm⟩
    · rintro ⟨keys', hkeys', rfl⟩
      obtain rfl := Except.ok.inj (hkeys.symm.trans hkeys')
      rfl
  · next fault hfault =>
    refine ⟨?_, ?_⟩
    · exact fun h => absurd h error_ne_ok
    · rintro ⟨keys, hkeys, -⟩
      exact absurd (hfault.symm.trans hkeys) (by simp)

theorem Agrees.call {s t s' : Reading} (h : s.Agrees t) {call : Call} {fields : Record}
    (hs : call.read s = .ok fields s') : ∃ t', call.read t = .ok fields t' ∧ s'.Agrees t' := by
  cases call with
  | line selection record => exact h.line hs
  | plain text => exact h.line hs
  -- a blank line is a line that turns out to have no fields
  | blank =>
    obtain ⟨⟨⟩, s₁, hblank, hpure⟩ := exists_of_bind_eq_ok hs
    obtain ⟨rfl, rfl⟩ := EStateM.Result.ok.inj hpure
    obtain ⟨t', ht', h'⟩ := h.line (blankLine_eq_ok.1 hblank)
    exact ⟨t', (bind_of_ok (blankLine_eq_ok.2 ht')).trans rfl, h'⟩
  -- which key stream a key has does not depend on the reading
  | setKey key =>
    obtain ⟨⟨⟩, s₁, hset, hpure⟩ := exists_of_bind_eq_ok hs
    obtain ⟨rfl, rfl⟩ := EStateM.Result.ok.inj hpure
    obtain ⟨keys, hkeys, rfl⟩ := setKey_eq_ok.1 hset
    exact ⟨_, (bind_of_ok (setKey_eq_ok.2 ⟨keys, hkeys, rfl⟩)).trans rfl, h.lines_eq, rfl,
      h.dump_eq, h.line_eq⟩
  | setKeyStream keys =>
    obtain ⟨rfl, rfl⟩ := EStateM.Result.ok.inj hs
    exact ⟨_, rfl, h.lines_eq, rfl, h.dump_eq, h.line_eq⟩

/-! ### Rows of calls that a reading shows -/

/-- Each call of the row gives its record, from one reading to another. -/
def Shows : Reading → List Call → Reading → Prop
  | s, [], s' => s = s'
  | s, call :: calls, s' => ∃ s₁, call.read s = .ok call.fields s₁ ∧ Shows s₁ calls s'

theorem Agrees.shows {s t s' : Reading} (h : s.Agrees t) {calls : List Call}
    (hs : s.Shows calls s') : ∃ t', t.Shows calls t' ∧ s'.Agrees t' := by
  induction calls generalizing s t with
  | nil =>
    obtain rfl : s = s' := hs
    exact ⟨t, rfl, h⟩
  | cons call calls ih =>
    obtain ⟨s₁, hcall, hs⟩ := hs
    obtain ⟨t₁, hcall', h₁⟩ := h.call hcall
    obtain ⟨t', ht', h'⟩ := ih h₁ hs
    exact ⟨t', ⟨t₁, hcall', ht'⟩, h'⟩

theorem Shows.append {s s₁ s' : Reading} {row row' : List Call} (h : s.Shows row s₁)
    (h' : s₁.Shows row' s') : s.Shows (row ++ row') s' := by
  induction row generalizing s with
  | nil =>
    obtain rfl : s = s₁ := h
    exact h'
  | cons call row ih =>
    obtain ⟨s₂, hcall, h⟩ := h
    exact ⟨s₂, hcall, ih h⟩

/-- A row that is shown has in each line the fields that are ciphered there. -/
theorem Shows.lt_length {s final : Reading} {row : List Call} (hs : s.Shows row final)
    {selection : Selection} {fields : Record} (h : .line selection fields ∈ row) :
    ∀ i ∈ selection.indices fields.length, i < fields.length := by
  induction row generalizing s with
  | nil => exact absurd h List.not_mem_nil
  | cons call row ih =>
    obtain ⟨s₁, hcall, hs⟩ := hs
    rcases List.mem_cons.1 h with rfl | h
    · exact lt_length_of_line hcall
    · exact ih hs h

/-- The replay of a run that gives back its records is a reading that shows the calls. -/
theorem shows_of_replay {calls : List Call} {trace : List (Record × Option Nat)} {s s' : Reading}
    (h : replay calls s = .ok trace s') (htrace : trace.map Prod.fst = calls.map Call.fields) :
    s.Shows calls s' := by
  induction calls generalizing s trace with
  | nil => exact (EStateM.Result.ok.inj h).2
  | cons call calls ih =>
    rw [replay] at h
    obtain ⟨fields, s₁, hcall, h⟩ := exists_of_bind_eq_ok h
    obtain ⟨_, _, hget, h⟩ := exists_of_bind_eq_ok h
    obtain ⟨rfl, rfl⟩ := EStateM.Result.ok.inj hget
    obtain ⟨rest, s₂, hrest, h⟩ := exists_of_bind_eq_ok h
    obtain ⟨rfl, rfl⟩ := EStateM.Result.ok.inj h
    -- the trace says that the record is that of the call
    obtain ⟨rfl, hrest'⟩ := List.cons.inj htrace
    exact ⟨s₁, hcall, ih hrest hrest'⟩

/-- **What is written is shown.** The reading of the text that calls write shows the calls. -/
theorem shows_of_perform {calls : List Call} (hadm : ∀ call ∈ calls, call.Admissible)
    {trace : List (Record × Option Nat)} {keys : Option Cipher.KeyStream} {w : Writing}
    (h : perform calls { keys } = .ok trace w) {dump : Option Dump} (hroomy : Roomy dump) :
    ∃ final, Shows { Reading.ofBytes (Text.utf8 w.text) dump with keys } calls final ∧
      Ready final w.keys [] [] := by
  obtain ⟨final, hreplay, hready⟩ := ready_of_perform hadm h hroomy
  exact ⟨final, shows_of_replay hreplay (map_fst_of_perform h), hready⟩

/-! ### From walks to readings -/

/-- How a reading that shows a row ends, if a walk along the row ends in the given way: with the
same result, and showing what the walk has left; or with a violation of the same cause. -/
def Matches {α : Type} (final : Reading) :
    EStateM.Result Halt (List Call) α → EStateM.Result Failure Reading α → Prop
  | .ok a rest, r => ∃ s' final', r = .ok a s' ∧ s'.Shows rest final' ∧ final.Agrees final'
  | .error (.refused cause) _, r => ∃ place s', r = .error (.violation ⟨cause, place⟩) s'
  | .error .stuck _, _ => True

theorem Matches.of_agrees {α : Type} {final final' : Reading} (h : final.Agrees final')
    {w : EStateM.Result Halt (List Call) α} {r : EStateM.Result Failure Reading α}
    (hm : Matches final' w r) : Matches final w r := by
  cases w with
  | ok a rest =>
    obtain ⟨s', final'', hr, hs, hagree⟩ := hm
    exact ⟨s', final'', hr, hs, h.trans hagree⟩
  | error halt rest =>
    cases halt with
    | refused cause => exact hm
    | stuck => trivial

/-- Work on readings that does what work on rows does, wherever the reading shows the row. -/
def Simulates {α : Type} (r : Read α) (w : Walk α) : Prop :=
  ∀ (row : List Call) (s final : Reading), s.Shows row final → Matches final (w row) (r s)

theorem Simulates.bind {α β : Type} {r : Read α} {w : Walk α} {rf : α → Read β} {wf : α → Walk β}
    (h : Simulates r w) (hf : ∀ a, Simulates (rf a) (wf a)) : Simulates (r >>= rf) (w >>= wf) := by
  intro row s final hs
  have hm := h row s final hs
  cases hw : w row with
  | ok a rest =>
    rw [hw] at hm
    obtain ⟨s', final', hr, hs', hagree⟩ := hm
    rw [bind_of_ok hw, bind_of_ok hr]
    -- the second work starts from a reading that shows what the first walk has left
    exact (hf a rest s' final' hs').of_agrees hagree
  | error halt rest =>
    rw [hw] at hm
    rw [bind_of_error hw]
    cases halt with
    | refused cause =>
      obtain ⟨place, s', hr⟩ := hm
      exact ⟨place, s', bind_of_error hr⟩
    | stuck => trivial

/-- Work that only reports is matched by no work at all. -/
theorem Reports.simulates {r : Read Unit} (h : Reports r) : Simulates r (pure ()) := by
  intro row s final hs
  obtain ⟨s', hr, hagree⟩ := h s
  obtain ⟨final', hs', hfinal⟩ := hagree.shows hs
  exact ⟨s', final', hr, hs', hfinal⟩

theorem simulates_line (selection : Selection) :
    Simulates (Reading.line selection) (Walk.line selection) := by
  intro row s final hs
  cases hline : Walk.line selection row with
  | ok fields rest =>
    -- the first call of the row is the one that asks for this line
    obtain rfl := Walk.line_eq_ok.1 hline
    obtain ⟨s₁, hread, hs₁⟩ := hs
    exact ⟨s₁, final, hread, hs₁, .refl final⟩
  | error halt rest =>
    -- a walk that is stuck says nothing about the reading
    obtain rfl := Walk.line_eq_error hline
    trivial

theorem simulates_peekBlank : Simulates Reading.peekBlank Walk.peekBlank := by
  intro row s final hs
  unfold Walk.peekBlank
  split
  · next found fields rest =>
    obtain ⟨s₁, hread, hs₁⟩ := hs
    exact ⟨s, final, peekBlank_of_line hread, ⟨s₁, hread, hs₁⟩, .refl final⟩
  · trivial

theorem simulates_setKey (key : String) :
    Simulates (Reading.setKey key) (Walk.setKey key) := by
  intro row s final hs
  cases hset : Walk.setKey key row with
  | ok u rest =>
    obtain rfl := Walk.setKey_eq_ok.1 hset
    obtain ⟨s₁, hread, hs₁⟩ := hs
    obtain ⟨⟨⟩, s₂, hkey, hpure⟩ := exists_of_bind_eq_ok hread
    obtain ⟨-, rfl⟩ := EStateM.Result.ok.inj hpure
    exact ⟨s₂, final, hkey, hs₁, .refl final⟩
  | error halt rest =>
    obtain rfl := Walk.setKey_eq_error hset
    trivial

/-- A search on a reading takes the records that the search on the row takes. -/
theorem search_of_shows {stop : Record → Bool} {skipped : List Record} {last : Record}
    {rest : List Call} {s final : Reading} (hskipped : ∀ r ∈ skipped, stop r = false)
    (hlast : stop last = true)
    (hs : s.Shows ((skipped ++ [last]).map (.line (.only [0])) ++ rest) final) (record : Nat) :
    ∃ s' final', search stop record s = .ok (skipped ++ [last]) s' ∧
      s'.Shows rest final' ∧ final.Agrees final' := by
  induction skipped generalizing s final record with
  | nil =>
    -- the number of the record is told to the place only
    obtain ⟨final', ⟨s', hline, hshows⟩, hfinal⟩ := (s.agrees_record record).shows hs
    refine ⟨s', final', ?_, hshows, hfinal⟩
    rw [search_eq]
    refine (bind_of_ok rfl).trans ((bind_of_ok hline).trans ?_)
    change (if stop last then _ else _ : Read _) s' = _
    rw [hlast, if_pos rfl]
    rfl
  | cons r skipped ih =>
    obtain ⟨final₁, ⟨s₁, hline, hshows₁⟩, hfinal₁⟩ := (s.agrees_record record).shows hs
    obtain ⟨s', final', hsearch, hshows, hfinal⟩ :=
      ih (fun r hr => hskipped r (List.mem_cons_of_mem _ hr)) hshows₁ (record + 1)
    refine ⟨s', final', ?_, hshows, hfinal₁.trans hfinal⟩
    rw [search_eq]
    refine (bind_of_ok rfl).trans ((bind_of_ok hline).trans ?_)
    change (if stop r then _ else _ : Read _) s₁ = _
    -- the first record fails the test, so the search goes on
    rw [hskipped r List.mem_cons_self, if_neg Bool.false_ne_true]
    exact (bind_of_ok hsearch).trans rfl

theorem simulates_scan (stop : Record → Bool) :
    Simulates (Reading.scan stop) (Walk.scan stop) := by
  intro row s final hs
  cases hscan : Walk.scan stop row with
  | ok records rest =>
    -- the row begins with the lines that the search takes
    obtain ⟨skipped, last, rfl, hskipped, hlast, rfl⟩ := Walk.scan_eq_ok.1 hscan
    obtain ⟨s', final', hs', hshows, hfinal⟩ := search_of_shows hskipped hlast hs 0
    exact ⟨s', final', hs', hshows, hfinal⟩
  | error halt rest =>
    obtain rfl := Walk.scan_eq_error hscan
    trivial

/-- **A walk is what the reading comes to.** On a reading that shows the row, a walk with a result
gives the same result and leaves a reading that shows what the walk has left; a walk that refuses
gives a violation of the same cause. -/
theorem simulates_walk {α : Type} (m : Script α) : Simulates m.run m.walk := by
  induction m with
  | done a => exact fun row s final hs => ⟨s, final, rfl, hs, .refl final⟩
  | refuse cause => exact fun row s final _ => ⟨s.place, s, rfl⟩
  | breach index => exact fun row s final _ => trivial
  | line selection next ih => exact (simulates_line selection).bind ih
  | peekBlank next ih => exact simulates_peekBlank.bind ih
  | scan stop next ih => exact (simulates_scan stop).bind ih
  -- what is only reported is matched by no step of the walk
  | enter part next ih => exact (reports_enter part).simulates.bind fun _ => ih
  | setRecord record next ih => exact (reports_setRecord record).simulates.bind fun _ => ih
  | setKey key next ih => exact (simulates_setKey key).bind fun _ => ih
  | note event next ih => exact (reports_note event).simulates.bind fun _ => ih
  | noteLines event next ih => exact (reports_noteLines event).simulates.bind fun _ => ih

/-- A reading that shows a text gives what a script makes of the text. -/
theorem exists_run_of_shows {α τ : Type} {m : Script α} {calls : τ → List Call}
    {Describes : τ → α → Prop} (h : m.Accepts calls Describes) {t : τ} {a : α}
    (ht : Describes t a) {s final : Reading} (hs : s.Shows (calls t) final) :
    ∃ s', m.run s = .ok a s' ∧ s'.Agrees final := by
  have hsim := simulates_walk m (calls t) s final hs
  rw [(h (calls t) [] a).2 ⟨t, ht, (List.append_nil _).symm⟩] at hsim
  obtain ⟨s', final', hrun, hnil, hfinal⟩ := hsim
  obtain rfl : s' = final' := hnil
  exact ⟨s', hrun, hfinal.symm⟩

end Reading

/-! ### Scripts that leave the end of the file to the reading -/

namespace Script

variable {α β σ : Type}

/-- The script asks for a line first. -/
def TakesLine : Script α → Prop
  | line _ _ => True
  | _ => False

/-- Whenever the script looks at the next line, it takes the line next; and it never refuses a file
for its end, which is found by asking for a line. -/
def Attentive : Script α → Prop
  | done _ | breach _ => True
  | refuse cause => cause ≠ .unexpectedEnd
  | line _ next => ∀ fields, (next fields).Attentive
  | peekBlank next => ∀ blank, (next blank).TakesLine ∧ (next blank).Attentive
  | scan _ next => ∀ records, (next records).Attentive
  | enter _ next | setRecord _ next | setKey _ next | note _ next | noteLines _ next =>
    next.Attentive

theorem TakesLine.exists_eq {m : Script α} (h : m.TakesLine) :
    ∃ selection next, m = line selection next := by
  cases m with
  | line selection next => exact ⟨selection, next, rfl⟩
  | _ => exact h.elim

theorem TakesLine.bind {m : Script α} (h : m.TakesLine) (f : α → Script β) :
    (m >>= f).TakesLine := by
  cases m with
  | line selection next => trivial
  | _ => exact h.elim

theorem Attentive.bind {m : Script α} {f : α → Script β} (hm : m.Attentive)
    (hf : ∀ a, (f a).Attentive) : (m >>= f).Attentive := by
  induction m with
  | done a => exact hf a
  | refuse cause => exact hm
  | breach index => trivial
  | line selection next ih => exact fun fields => ih fields (hm fields)
  | peekBlank next ih => exact fun blank => ⟨(hm blank).1.bind f, ih blank (hm blank).2⟩
  | scan stop next ih => exact fun records => ih records (hm records)
  | enter part next ih => exact ih hm
  | setRecord record next ih => exact ih hm
  | setKey key next ih => exact ih hm
  | note event next ih => exact ih hm
  | noteLines event next ih => exact ih hm

end Script

namespace Reading

/-! ### From readings to walks -/

/-- A successful search has shown the records that it gives. -/
theorem shows_of_search {stop : Record → Bool} {lines : List Text.Line} {s s' : Reading}
    (hlines : s.lines = lines) {record : Nat} {records : List Record}
    (h : search stop record s = .ok records s') :
    ∃ skipped last final, records = skipped ++ [last] ∧ (∀ r ∈ skipped, stop r = false) ∧
      stop last = true ∧ s.Shows (records.map (.line (.only [0]))) final ∧ s'.Agrees final := by
  induction lines generalizing s record records with
  | nil =>
    -- the search asks for a line, and there is none
    rw [search_eq] at h
    obtain ⟨⟨⟩, s₀, hrecord, h⟩ := exists_of_bind_eq_ok h
    obtain ⟨-, rfl⟩ := EStateM.Result.ok.inj hrecord
    obtain ⟨fields, s₁, hline, -⟩ := exists_of_bind_eq_ok h
    obtain ⟨s₂, hline₂, -⟩ := (s.agrees_record record).symm.line hline
    rw [line_nil hlines] at hline₂
    exact absurd hline₂ error_ne_ok
  | cons first lines ih =>
    rw [search_eq] at h
    obtain ⟨⟨⟩, s₀, hrecord, h⟩ := exists_of_bind_eq_ok h
    obtain ⟨-, rfl⟩ := EStateM.Result.ok.inj hrecord
    obtain ⟨fields, s₁, hline, h⟩ := exists_of_bind_eq_ok h
    -- the search goes on with the lines behind the one taken
    have hs₁ : s₁.lines = lines := (tail_of_line hline).trans (congrArg List.tail hlines)
    obtain ⟨s₂, hline₂, hs₂⟩ := (s.agrees_record record).symm.line hline
    cases hstop : stop fields with
    | true =>
      simp only [hstop, if_true] at h
      obtain ⟨rfl, rfl⟩ := EStateM.Result.ok.inj h
      exact ⟨[], fields, s₂, rfl, by simp, hstop, ⟨s₂, hline₂, rfl⟩, hs₂⟩
    | false =>
      simp only [hstop, Bool.false_eq_true, if_false] at h
      obtain ⟨found, s₃, hsearch, hpure⟩ := exists_of_bind_eq_ok h
      obtain ⟨rfl, rfl⟩ := EStateM.Result.ok.inj hpure
      obtain ⟨skipped, last, final, rfl, hskipped, hlast, hshows, hfinal⟩ := ih hs₁ hsearch
      obtain ⟨final', hshows', hfinal'⟩ := hs₂.shows hshows
      refine ⟨fields :: skipped, last, final', rfl, fun r hr => ?_, hlast,
        ⟨s₂, hline₂, hshows'⟩, hfinal.trans hfinal'⟩
      rcases List.mem_cons.1 hr with rfl | hr
      · exact hstop
      · exact hskipped r hr

/-- The row that is shown behind a report is shown before it. -/
theorem Reports.exists_walk {α : Type} {r : Read Unit} (hr : Reports r) (next : Script α)
    {s s' : Reading} {a : α}
    (ih : ∀ {s}, next.run s = .ok a s' →
      ∃ row final, next.walk row = .ok a [] ∧ s.Shows row final ∧ s'.Agrees final)
    (h : (r >>= fun _ => next.run) s = .ok a s') :
    ∃ row final, next.walk row = .ok a [] ∧ s.Shows row final ∧ s'.Agrees final := by
  obtain ⟨s₁, hreport, hagree⟩ := hr s
  rw [bind_of_ok hreport] at h
  obtain ⟨row, final, hwalk, hshows, hfinal⟩ := ih h
  -- the reading behind the report agrees with the one before it
  obtain ⟨final', hshows', hfinal'⟩ := hagree.symm.shows hshows
  exact ⟨row, final', hwalk, hshows', hfinal.trans hfinal'⟩

/-- **What is accepted has been shown.** An attentive script that a reading accepts walks along a
row of calls that the reading shows, and gives the same result. -/
theorem exists_walk_of_run {α : Type} {m : Script α} (hm : m.Attentive) {s s' : Reading} {a : α}
    (h : m.run s = .ok a s') :
    ∃ row final, m.walk row = .ok a [] ∧ s.Shows row final ∧ s'.Agrees final := by
  induction m generalizing s with
  | done b =>
    obtain ⟨rfl, rfl⟩ := EStateM.Result.ok.inj h
    exact ⟨[], s, rfl, rfl, .refl s⟩
  | refuse cause => exact absurd h error_ne_ok
  | breach index => exact absurd h error_ne_ok
  | line selection next ih =>
    obtain ⟨fields, s₁, hline, h⟩ := exists_of_bind_eq_ok h
    obtain ⟨row, final, hwalk, hshows, hfinal⟩ := ih fields (hm fields) h
    refine ⟨.line selection fields :: row, final, ?_, ⟨s₁, hline, hshows⟩, hfinal⟩
    exact (bind_of_ok (Walk.line_eq_ok.2 rfl)).trans hwalk
  | peekBlank next ih =>
    obtain ⟨blank, s₁, hpeek, h⟩ := exists_of_bind_eq_ok h
    -- a look takes nothing, so what follows starts from the same reading
    obtain rfl := eq_of_peekBlank hpeek
    obtain ⟨row, final, hwalk, hshows, hfinal⟩ := ih blank (hm blank).2 h
    -- the line that was looked at is the first line of the row
    obtain ⟨selection, next', hscript⟩ := (hm blank).1.exists_eq
    have hfirst := hwalk
    rw [hscript] at hfirst
    obtain ⟨fields, rest, hline, -⟩ := exists_of_bind_eq_ok hfirst
    obtain rfl := Walk.line_eq_ok.1 hline
    have hread := hshows
    obtain ⟨s₁, hread, -⟩ := hread
    -- so the look has told whether its record is empty
    obtain ⟨rfl, -⟩ := EStateM.Result.ok.inj (hpeek.symm.trans (peekBlank_of_line hread))
    have hlook : Walk.peekBlank (.line selection fields :: rest) =
      .ok fields.isEmpty (.line selection fields :: rest) := rfl
    exact ⟨_, final, (bind_of_ok hlook).trans hwalk, hshows, hfinal⟩
  | scan stop next ih =>
    obtain ⟨records, s₁, hscan, h⟩ := exists_of_bind_eq_ok h
    obtain ⟨skipped, last, final₁, rfl, hskipped, hlast, hshows₁, hfinal₁⟩ :=
      shows_of_search rfl hscan
    obtain ⟨row, final, hwalk, hshows, hfinal⟩ := ih _ (hm _) h
    obtain ⟨final', hshows', hfinal'⟩ := hfinal₁.shows hshows
    refine ⟨_ ++ row, final', ?_, hshows₁.append hshows', hfinal.trans hfinal'⟩
    exact (bind_of_ok (Walk.scan_eq_ok.2 ⟨skipped, last, rfl, hskipped, hlast, rfl⟩)).trans hwalk
  | enter part next ih => exact (reports_enter part).exists_walk next (ih hm) h
  | setRecord record next ih => exact (reports_setRecord record).exists_walk next (ih hm) h
  | setKey key next ih =>
    obtain ⟨⟨⟩, s₁, hset, h⟩ := exists_of_bind_eq_ok h
    obtain ⟨row, final, hwalk, hshows, hfinal⟩ := ih hm h
    refine ⟨.setKey key :: row, final, ?_, ⟨s₁, ?_, hshows⟩, hfinal⟩
    · exact (bind_of_ok (Walk.setKey_eq_ok.2 rfl)).trans hwalk
    · exact (bind_of_ok hset).trans rfl
  | note event next ih => exact (reports_note event).exists_walk next (ih hm) h
  | noteLines event next ih => exact (reports_noteLines event).exists_walk next (ih hm) h

end Reading

end ChipAtlas
