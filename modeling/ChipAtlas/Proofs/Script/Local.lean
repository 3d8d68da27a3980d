import ChipAtlas.Proofs.Reading.Dump
import ChipAtlas.Proofs.Script.Shows

/-!
# What a reading consumes

Work on a reading depends on the lines that it takes and on no others: whatever stands behind them,
the outcome is the same, and if the file ends before the last of them, the work runs out of lines
exactly there. `Reading.LocalAt` says so for one work and one reading, together with what goes into
the dump line by line.

* `Reading.LocalAt.bind` — two works one after the other;
* `Reading.localAt_line`, `Reading.localAt_scan` — one line, and a search;
* `Reading.localAt_run` — every attentive script.
-/

namespace ChipAtlas

open Stateful

/-- The file ended too early. -/
def Failure.RunsOut : Failure → Prop
  | .violation v => v.cause = .unexpectedEnd
  | .io _ | .breach _ => False

namespace Reading

/-- The reading with other lines before it. -/
def withLines (s : Reading) (lines : List Text.Line) : Reading := { s with lines }

@[simp] theorem withLines_lines (s : Reading) (lines : List Text.Line) :
    (s.withLines lines).lines = lines := rfl

@[simp] theorem withLines_keys (s : Reading) (lines : List Text.Line) :
    (s.withLines lines).keys = s.keys := rfl

@[simp] theorem withLines_self (s : Reading) : s.withLines s.lines = s := rfl

variable {α β : Type} {m : Read α} {f : α → Read β} {s s₁ : Reading} {used used' : List Text.Line}
  {records records' : List Record}

/-- The work takes some lines and dumps a record for each. What stands behind the lines has no part
in it, and without the last of them it runs out of lines, with the dump as far as the lines go. -/
structure Consumes (m : Read α) (s : Reading) (used : List Text.Line) (records : List Record) :
    Prop where
  lines_eq : s.lines = used ++ (endState (m s)).lines
  line_eq : (endState (m s)).place.line = s.place.line + used.length
  behind : ∀ rest, m (s.withLines (used ++ rest)) = mapState (·.withLines rest) (m s)
  cut : ∀ k < used.length, ∃ place t,
    m (s.withLines (used.take k)) = .error (.violation ⟨.unexpectedEnd, place⟩) t ∧
      place.line = s.place.line + k + 1 ∧ Dumps s.dump (records.take k) t.dump

/-- Unless it runs out of lines, the work consumes the lines that it takes. A work that fails may do
so before the record of its last line is in the dump, or is wholly in the dump. -/
structure LocalAt (m : Read α) (s : Reading) : Prop where
  ok : ∀ {a s'}, m s = .ok a s' → ∃ used records, Consumes m s used records ∧
    records.length = used.length ∧ Dumps s.dump records s'.dump
  error : ∀ {e s'}, m s = .error e s' → ¬e.RunsOut → ∃ used records, Consumes m s used records ∧
    used.length ≤ records.length + 1 ∧
      ∃ d, Dumps s.dump records d ∧ (s'.dump = d ∨ ∃ record, s'.dump = (emitTo d record).1)

/-! ### Works one after the other -/

theorem Consumes.bind {a : α} (hm : m s = .ok a s₁) (h : Consumes m s used records)
    (hlen : records.length = used.length) (hdumps : Dumps s.dump records s₁.dump)
    (h' : Consumes (f a) s₁ used' records') :
    Consumes (m >>= f) s (used ++ used') (records ++ records') := by
  have hlines := h.lines_eq
  have hline := h.line_eq
  have hbehind := h.behind
  rw [hm] at hlines hline hbehind
  have hend : (m >>= f) s = f a s₁ := bind_of_ok hm
  refine ⟨?_, ?_, fun rest => ?_, fun k hk => ?_⟩
  · rw [hend, List.append_assoc, ← h'.lines_eq]
    exact hlines
  · rw [hend, h'.line_eq, List.length_append, ← Nat.add_assoc]
    exact congrArg (· + used'.length) hline
  · rw [hend, List.append_assoc, ← h'.behind rest]
    exact bind_of_ok (hbehind (used' ++ rest))
  · rw [List.length_append] at hk
    -- the file is cut among the lines of the first work, or behind them
    by_cases hlt : k < used.length
    · obtain ⟨place, t, ht, hplace, htdumps⟩ := h.cut k hlt
      rw [List.take_append_of_le_length (Nat.le_of_lt hlt),
        List.take_append_of_le_length (hlen ▸ Nat.le_of_lt hlt)]
      exact ⟨place, t, bind_of_error ht, hplace, htdumps⟩
    · -- the cut is among the lines of the second work
      obtain ⟨j, rfl⟩ := Nat.exists_eq_add_of_le (Nat.le_of_not_lt hlt)
      obtain ⟨place, t, ht, hplace, htdumps⟩ := h'.cut j (by omega)
      rw [List.take_length_add_append, ← hlen, List.take_length_add_append]
      refine ⟨place, t, (bind_of_ok (hbehind (used'.take j))).trans ht, ?_, hdumps.append htdumps⟩
      have : s₁.place.line = s.place.line + used.length := hline
      omega

theorem Consumes.bind_of_error {e : Failure} (hm : m s = .error e s₁)
    (h : Consumes m s used records) : Consumes (m >>= f) s used records := by
  have hend : (m >>= f) s = .error e s₁ := Stateful.bind_of_error hm
  have hlines := h.lines_eq
  have hline := h.line_eq
  have hbehind := h.behind
  rw [hm] at hlines hline hbehind
  refine ⟨?_, ?_, fun rest => ?_, fun k hk => ?_⟩
  · rw [hend]
    exact hlines
  · rw [hend]
    exact hline
  · rw [hend]
    exact Stateful.bind_of_error (hbehind rest)
  · obtain ⟨place, t, ht, hrest⟩ := h.cut k hk
    exact ⟨place, t, Stateful.bind_of_error ht, hrest⟩

/-- **Works one after the other.** -/
theorem LocalAt.bind (h : LocalAt m s) (hf : ∀ {a s'}, m s = .ok a s' → LocalAt (f a) s') :
    LocalAt (m >>= f) s := by
  cases hm : m s with
  | ok a s₁ =>
    -- the first work consumes its lines, and the second one goes on behind them
    obtain ⟨used, records, hused, hlen, hdumps⟩ := h.ok hm
    have hend : (m >>= f) s = f a s₁ := bind_of_ok hm
    refine ⟨?_, ?_⟩
    · intro b s' hs'
      obtain ⟨used', records', hused', hlen', hdumps'⟩ := (hf hm).ok (hend.symm.trans hs')
      refine ⟨_, _, hused.bind hm hlen hdumps hused', ?_, hdumps.append hdumps'⟩
      rw [List.length_append, List.length_append, hlen, hlen']
    · intro e s' hs' hrun
      obtain ⟨used', records', hused', hlen', d, hd, hend'⟩ :=
        (hf hm).error (hend.symm.trans hs') hrun
      refine ⟨_, _, hused.bind hm hlen hdumps hused', ?_, d, hdumps.append hd, hend'⟩
      rw [List.length_append, List.length_append, hlen, Nat.add_assoc]
      exact Nat.add_le_add_left hlen' _
  | error e s₁ =>
    have hend : (m >>= f) s = .error e s₁ := bind_of_error hm
    refine ⟨?_, ?_⟩
    · intro b s' hs'
      exact absurd (hend.symm.trans hs') error_ne_ok
    · intro e' s' hs' hrun
      -- the failure is that of the first work, and the second one never starts
      obtain ⟨rfl, rfl⟩ := EStateM.Result.error.inj (hend.symm.trans hs')
      obtain ⟨used, records, hused, hrest⟩ := h.error hm hrun
      exact ⟨used, records, hused.bind_of_error hm, hrest⟩

/-! ### Single works -/

/-- A work that looks at no line consumes none. -/
theorem localAt_of_silent (hlines : (endState (m s)).lines = s.lines)
    (hline : (endState (m s)).place.line = s.place.line) (hdump : (endState (m s)).dump = s.dump)
    (hbehind : ∀ rest, m (s.withLines rest) = mapState (·.withLines rest) (m s)) : LocalAt m s := by
  have hused : Consumes m s [] [] := ⟨hlines.symm, hline, hbehind, nofun⟩
  refine ⟨?_, ?_⟩
  · intro a s' hs'
    rw [hs'] at hdump
    exact ⟨[], [], hused, rfl, hdump.symm⟩
  · intro e s' hs' _
    rw [hs'] at hdump
    exact ⟨[], [], hused, by simp, s.dump, rfl, .inl hdump⟩

theorem localAt_pure (a : α) (s : Reading) : LocalAt (pure a) s :=
  localAt_of_silent rfl rfl rfl fun _ => rfl

theorem localAt_refuse (cause : Cause) (s : Reading) : LocalAt (refuse cause : Read α) s :=
  localAt_of_silent rfl rfl rfl fun _ => rfl

theorem localAt_note (event : Event) (s : Reading) : LocalAt (note event) s :=
  localAt_of_silent rfl rfl rfl fun _ => rfl

theorem localAt_setRecord (record : Nat) (s : Reading) : LocalAt (setRecord record) s :=
  localAt_of_silent rfl rfl rfl fun _ => rfl

theorem localAt_setKey (key : String) (s : Reading) : LocalAt (setKey key) s := by
  cases hkeys : Cipher.KeyStream.create key 0 with
  | ok keys =>
    have hset (s : Reading) : setKey key s = .ok () { s with keys := some keys } :=
      setKey_eq_ok.2 ⟨keys, hkeys, rfl⟩
    refine localAt_of_silent ?_ ?_ ?_ fun rest => ?_
    all_goals rw [hset s]
    · rfl
    · rfl
    · rfl
    · exact hset _
  | error fault =>
    have hset (s : Reading) : setKey key s = refuse (.cipher fault) s := by rw [setKey, hkeys]
    refine localAt_of_silent ?_ ?_ ?_ fun rest => ?_
    all_goals rw [hset s]
    · rfl
    · rfl
    · rfl
    · exact hset _

/-- A work that takes the next line, whatever stands behind it, and does not take it from an empty
file. Its record goes into the dump if it succeeds. -/
theorem localAt_of_first {first : Text.Line} {rest : List Text.Line}
    {r : EStateM.Result Failure Reading α} (hfirst : s.lines = first :: rest)
    (hbehind : ∀ rest, m (s.withLines (first :: rest)) = mapState (·.withLines rest) r)
    (hline : (endState r).place.line = s.place.line + 1)
    (hdump : match r with
      | .ok _ t => ∃ record, Dumps s.dump [record] t.dump
      | .error _ t => t.dump = s.dump ∨ ∃ record, t.dump = (emitTo s.dump record).1)
    (hnil : ∃ t, m (s.withLines []) = .error (.violation ⟨.unexpectedEnd, s.nextPlace⟩) t ∧
      t.dump = s.dump) : LocalAt m s := by
  -- what stands behind the line is the rest of the file
  have hend : m s = mapState (·.withLines rest) r := by
    rw [← hbehind rest, ← hfirst, withLines_self]
  have hused (records : List Record) : Consumes m s [first] records := by
    refine ⟨?_, ?_, fun rest' => ?_, fun k hk => ?_⟩
    · rw [hend, endState_mapState, withLines_lines, hfirst, List.singleton_append]
    · rw [hend, endState_mapState]
      exact hline
    · rw [hend, List.singleton_append, hbehind rest']
      cases r <;> rfl
    · -- nothing is left of one line that is cut
      obtain rfl : k = 0 := Nat.lt_one_iff.1 hk
      obtain ⟨t, ht, htdump⟩ := hnil
      exact ⟨s.nextPlace, t, ht, rfl, htdump.symm⟩
  cases r with
  | ok a t =>
    obtain ⟨record, hrecord⟩ := hdump
    refine ⟨fun hs' => ?_, fun hs' => absurd (hend.symm.trans hs') ok_ne_error⟩
    obtain ⟨-, rfl⟩ := EStateM.Result.ok.inj (hend.symm.trans hs')
    exact ⟨_, [record], hused _, rfl, hrecord⟩
  | error e t =>
    refine ⟨fun hs' => absurd (hend.symm.trans hs') error_ne_ok, fun hs' _ => ?_⟩
    obtain ⟨-, rfl⟩ := EStateM.Result.error.inj (hend.symm.trans hs')
    exact ⟨_, [], hused _, by simp, s.dump, rfl, hdump⟩

/-- A work that finds no line runs out of lines. -/
theorem localAt_of_nil {e : Failure} {t : Reading} (hend : m s = .error e t) (he : e.RunsOut) :
    LocalAt m s := by
  refine ⟨fun hs' => absurd (hend.symm.trans hs') error_ne_ok, fun hs' hrun => absurd ?_ hrun⟩
  obtain ⟨rfl, -⟩ := EStateM.Result.error.inj (hend.symm.trans hs')
  exact he

/-- **One line** is local. -/
theorem localAt_line (selection : Selection) (s : Reading) : LocalAt (line selection) s := by
  have hnil : ∃ t, line selection (s.withLines []) =
      .error (.violation ⟨.unexpectedEnd, s.nextPlace⟩) t ∧ t.dump = s.dump :=
    ⟨_, line_nil rfl selection, rfl⟩
  cases hlines : s.lines with
  | nil => exact localAt_of_nil (line_nil hlines selection) rfl
  | cons first rest =>
    cases first with
    -- a line that cannot be read is taken, and nothing goes into the dump
    | unreadable =>
      exact localAt_of_first (r := .error (.io ⟨.unreadableText, .nothing⟩) (s.taken rest)) hlines
        (fun rest => line_unreadable rfl selection) rfl (.inl rfl) hnil
    | text raw =>
      -- the line is deciphered or refused, and then dumped or not
      cases hd : deciphered selection raw s.keys with
      | error cause keys =>
        refine localAt_of_first (r := .error (.violation ⟨cause, s.nextPlace⟩)
          { s.taken rest with keys }) hlines (fun rest => ?_) rfl (.inl rfl) hnil
        rw [line_text rfl, withLines_keys, hd]
        rfl
      | ok fields keys =>
        by_cases hcomplete : (emitTo s.dump fields).2 = true
        · refine localAt_of_first
            (r := .ok fields { s.taken rest with keys, dump := (emitTo s.dump fields).1 }) hlines
            (fun rest => ?_) rfl ⟨fields, lineFeed_not_mem_of_deciphered hd, hcomplete, rfl⟩ hnil
          rw [line_text rfl, withLines_keys, hd]
          exact if_pos hcomplete
        · -- what went into the dump is a part of the record
          refine localAt_of_first (r := .error (.io ⟨.shortWrite, .nothing⟩)
            { s.taken rest with keys, dump := (emitTo s.dump fields).1 }) hlines
            (fun rest => ?_) rfl (.inr ⟨fields, rfl⟩) hnil
          rw [line_text rfl, withLines_keys, hd]
          exact if_neg hcomplete

/-- **A search** is local: it is one line after the other. -/
theorem localAt_search (stop : Record → Bool) (record : Nat) (s : Reading) :
    LocalAt (search stop record) s := by
  induction hlines : s.lines generalizing s record with
  | nil =>
    have hline := line_nil (s := { s with place := { s.place with record } }) hlines (.only [0])
    rw [search_eq]
    exact localAt_of_nil ((bind_of_ok rfl).trans (bind_of_error hline)) rfl
  | cons first rest ih =>
    rw [search_eq]
    refine (localAt_setRecord record s).bind fun {_ s₀} hset => ?_
    obtain ⟨-, rfl⟩ := EStateM.Result.ok.inj hset
    -- behind the line, the search is the one for the lines that are left
    refine (localAt_line (.only [0]) _).bind fun {fields s₁} hline => ?_
    have hrest : s₁.lines = rest := (tail_of_line hline).trans (congrArg List.tail hlines)
    -- the record passes the test, or the search goes on
    split
    · exact localAt_pure _ _
    · exact (ih (record + 1) s₁ hrest).bind fun _ => localAt_pure _ _

/-- A work that does what a local work does as soon as there is a first line, and that runs out of
lines as the other does if there is none. -/
theorem LocalAt.of_first {m' : Read α} {first : Text.Line} {rest : List Text.Line}
    (h : LocalAt m' s) (hfirst : s.lines = first :: rest)
    (heq : ∀ rest, m (s.withLines (first :: rest)) = m' (s.withLines (first :: rest)))
    (hnil : ∃ t, m (s.withLines []) = .error (.violation ⟨.unexpectedEnd, s.nextPlace⟩) t ∧
      t.dump = s.dump)
    (hnil' : ∃ t place, m' (s.withLines []) = .error (.violation ⟨.unexpectedEnd, place⟩) t) :
    LocalAt m s := by
  have hend : m s = m' s := by
    have := heq rest
    rwa [← hfirst, withLines_self] at this
  -- the other work takes the first line, or it would not matter that there is none
  have hcons (hrun : ∀ e t, m' s = .error e t → ¬e.RunsOut) {used : List Text.Line}
      {records : List Record} (hused : Consumes m' s used records) :
      ∃ used', used = first :: used' := by
    cases used with
    | nil =>
      obtain ⟨t, place, ht⟩ := hnil'
      have hbehind := ht.symm.trans (hused.behind [])
      cases hm : m' s with
      | ok a t => exact absurd (hm ▸ hbehind) error_ne_ok
      | error e t =>
        rw [hm] at hbehind
        obtain ⟨rfl, -⟩ := EStateM.Result.error.inj hbehind
        exact absurd rfl (hrun _ t hm)
    | cons first' used' =>
      obtain ⟨rfl, -⟩ := List.cons.inj (hfirst.symm.trans hused.lines_eq)
      exact ⟨used', rfl⟩
  -- what stands behind the lines, and where they are cut, makes no difference if there is a line
  have htransfer (hrun : ∀ e t, m' s = .error e t → ¬e.RunsOut) {used : List Text.Line}
      {records : List Record} (hused : Consumes m' s used records) :
      Consumes m s used records := by
    obtain ⟨used', rfl⟩ := hcons hrun hused
    refine ⟨hend ▸ hused.lines_eq, hend ▸ hused.line_eq, fun rest => ?_, fun k hk => ?_⟩
    · rw [hend, ← hused.behind rest, List.cons_append, heq]
    · cases k with
      | zero =>
        obtain ⟨t, ht, hdump⟩ := hnil
        exact ⟨s.nextPlace, t, ht, rfl, hdump.symm⟩
      | succ k =>
        obtain ⟨place, t, ht, hrest⟩ := hused.cut (k + 1) hk
        exact ⟨place, t, (heq _).trans ht, hrest⟩
  refine ⟨?_, ?_⟩
  · intro a s' hs'
    obtain ⟨used, records, hused, hrest⟩ := h.ok (hend.symm.trans hs')
    refine ⟨used, records, htransfer (fun e t ht => ?_) hused, hrest⟩
    exact absurd (ht.symm.trans (hend.symm.trans hs')) error_ne_ok
  · intro e s' hs' hrun
    obtain ⟨used, records, hused, hrest⟩ := h.error (hend.symm.trans hs') hrun
    refine ⟨used, records, htransfer (fun e' t ht => ?_) hused, hrest⟩
    obtain ⟨rfl, -⟩ := EStateM.Result.error.inj (ht.symm.trans (hend.symm.trans hs'))
    exact hrun

/-- A script that asks for a line first runs out of lines if there is none. -/
theorem run_nil_of_takesLine {m : Script α} (hm : m.TakesLine) (hs : s.lines = []) :
    m.run s = .error (.violation ⟨.unexpectedEnd, s.nextPlace⟩) (s.taken []) := by
  obtain ⟨selection, next, rfl⟩ := hm.exists_eq
  exact bind_of_error (line_nil hs selection)

/-- **A look at a line** that is taken next is local. -/
theorem localAt_peekBlank {next : Bool → Script α} (hnext : ∀ blank, (next blank).TakesLine)
    (hrun : ∀ blank, LocalAt (next blank).run s) :
    LocalAt (do (next (← peekBlank)).run : Read α) s := by
  have hnil : ∃ t, (do (next (← peekBlank)).run : Read α) (s.withLines []) =
      .error (.violation ⟨.unexpectedEnd, s.nextPlace⟩) t ∧ t.dump = s.dump :=
    ⟨_, bind_of_error (peekBlank_nil rfl), rfl⟩
  cases hlines : s.lines with
  | nil => exact localAt_of_nil (bind_of_error (peekBlank_nil hlines)) rfl
  | cons first rest =>
    cases first with
    | unreadable =>
      exact localAt_of_first (r := .error (.io ⟨.unreadableText, .nothing⟩) (s.taken rest)) hlines
        (fun rest => bind_of_error (peekBlank_unreadable rfl)) rfl (.inl rfl) hnil
    | text raw =>
      -- the look tells what the line says, and the work that follows takes the line
      exact (hrun (Text.isBlankLine raw)).of_first hlines
        (fun rest => bind_of_ok (peekBlank_text rfl)) hnil
        ⟨_, _, run_nil_of_takesLine (hnext _) rfl⟩

/-- **Every attentive script** consumes the lines that it takes. -/
theorem localAt_run {m : Script α} (hm : m.Attentive) (s : Reading) : LocalAt m.run s := by
  induction m generalizing s with
  | done a => exact localAt_pure a s
  | refuse cause => exact localAt_refuse cause s
  | breach index => exact localAt_of_silent rfl rfl rfl fun _ => rfl
  | line selection next ih =>
    exact (localAt_line selection s).bind fun {fields s'} _ => ih fields (hm fields) s'
  | peekBlank next ih =>
    exact localAt_peekBlank (fun blank => (hm blank).1) fun blank => ih blank (hm blank).2 s
  | scan stop next ih =>
    exact (localAt_search stop 0 s).bind fun {records s'} _ => ih records (hm records) s'
  -- what only reports takes no line
  | enter part next ih =>
    have henter : LocalAt (enter part) s := localAt_of_silent rfl rfl rfl fun _ => rfl
    exact henter.bind fun {_ s'} _ => ih hm s'
  | setRecord record next ih =>
    exact (localAt_setRecord record s).bind fun {_ s'} _ => ih hm s'
  | setKey key next ih => exact (localAt_setKey key s).bind fun {_ s'} _ => ih hm s'
  | note event next ih => exact (localAt_note event s).bind fun {_ s'} _ => ih hm s'
  | noteLines event next ih =>
    have hreport : LocalAt (do Reading.note (event (← get).place.line)) s :=
      localAt_of_silent rfl rfl rfl fun _ => rfl
    exact hreport.bind fun {_ s'} _ => ih hm s'

end Reading

end ChipAtlas
