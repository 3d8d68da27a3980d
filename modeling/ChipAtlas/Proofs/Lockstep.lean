import ChipAtlas.Proofs.Reading.Line
import ChipAtlas.Proofs.Text.Lines

/-!
# Writing and reading in lockstep

A writer and a reader that start from the same key stream and carry out the same calls, line by
line, stay together: each call of the reader gives the record that the same call of the writer was
given, and the two cursors agree behind every call.

The argument is a simulation. A call of the writer puts at most one line behind the others; a reader
that has this line next and the writer's key stream takes exactly the line, gives the record and
ends with the writer's new key stream (`Call.read_of_write`). A run of calls is the same statement
with a list of lines (`exists_lines_of_perform`).

* `Call` — one call, with its two sides `Call.write` and `Call.read`;
* `perform`, `replay` — runs of calls, with the record and the cursor behind each call;
* `replay_perform` — the replay of a run gives what the run was given.
-/

namespace ChipAtlas

open Cipher (KeyStream)
open Stateful
open Text (IsWord utf8 wordsOf)

/-! ### Calls -/

/-- One call of a writer, which a reader answers by a call of its own. -/
inductive Call where
  /-- A record with the selected fields ciphered. -/
  | line (selection : Selection) (fields : Record)
  /-- A line as it is. -/
  | plain (text : String)
  /-- A blank line. -/
  | blank
  /-- Both sides go on with the key stream of a key. -/
  | setKey (key : String)
  /-- Both sides go on with a key stream. -/
  | setKeyStream (keys : KeyStream)
  deriving DecidableEq, Repr

namespace Call

/-- The call on the side of the writer. -/
def write : Call → Write Unit
  | line selection fields => Writing.line selection fields
  | plain text => Writing.plain text
  | blank => Writing.blank
  | setKey key => Writing.setKey key
  | setKeyStream keys => Writing.setKeyStream keys

/-- The call on the side of the reader, with the record that it gives. -/
def read : Call → Read Record
  | line selection _ => Reading.line selection
  | plain _ => Reading.line (.only [])
  | blank => do Script.blankLine.run; return []
  | setKey key => do Reading.setKey key; return []
  | setKeyStream keys => do Reading.setKeyStream keys; return []

/-- The record that a call is about. -/
def fields : Call → Record
  | line _ fields => fields
  | plain text => wordsOf text
  | blank | setKey _ | setKeyStream _ => []

/-- What a caller has to see to: the fields of a record are words, and the listed positions are
distinct and inside the record; a line as it is has no line feed. -/
def Admissible : Call → Prop
  | line selection fields => selection.Fits fields.length ∧ ∀ f ∈ fields, IsWord f
  | plain text => '\n' ∉ text.toList
  | blank | setKey _ | setKeyStream _ => True

instance (call : Call) : Decidable call.Admissible :=
  match call with
  | line _ _ => inferInstanceAs (Decidable (_ ∧ _))
  | plain _ => inferInstanceAs (Decidable (_ ∉ _))
  | blank | setKey _ | setKeyStream _ => inferInstanceAs (Decidable True)

/-- What the cipher asks for: ciphered fields are graphic, and a key is a non-empty ASCII text. -/
def Writable : Call → Prop
  | line selection fields => ∀ i ∈ selection.indices fields.length, ∀ f ∈ fields[i]?,
      ∀ c ∈ f.toList, Cipher.isGraphic c
  | setKey key => key ≠ "" ∧ ∀ c ∈ key.toList, Cipher.isAscii c
  | plain _ | blank | setKeyStream _ => True

instance (call : Call) : Decidable call.Writable :=
  match call with
  | line _ _ => inferInstanceAs (Decidable (∀ _ ∈ _, ∀ _ ∈ _, _))
  | setKey _ => inferInstanceAs (Decidable (_ ∧ _))
  | plain _ | blank | setKeyStream _ => inferInstanceAs (Decidable True)

end Call

/-- Calls of a writer, one after the other: behind each, the record it was given and the cursor. -/
def perform : List Call → Write (List (Record × Option Nat))
  | [] => return []
  | call :: calls => do
    call.write
    let cursor := (← get).cursor
    return (call.fields, cursor) :: (← perform calls)

/-- Calls of a reader, one after the other: behind each, the record it gives and the cursor. -/
def replay : List Call → Read (List (Record × Option Nat))
  | [] => return []
  | call :: calls => do
    let fields ← call.read
    let cursor := (← get).cursor
    return (fields, cursor) :: (← replay calls)

theorem perform_cons_eq_ok {call : Call} {calls : List Call} {trace : List (Record × Option Nat)}
    {w w' : Writing} (h : perform (call :: calls) w = .ok trace w') :
    ∃ w₁ rest, call.write w = .ok () w₁ ∧ perform calls w₁ = .ok rest w' ∧
      trace = (call.fields, w₁.cursor) :: rest := by
  obtain ⟨⟨⟩, w₁, hcall, h⟩ := exists_of_bind_eq_ok h
  obtain ⟨_, _, hget, h⟩ := exists_of_bind_eq_ok h
  obtain ⟨rfl, rfl⟩ := EStateM.Result.ok.inj hget
  obtain ⟨rest, w₂, hrest, h⟩ := exists_of_bind_eq_ok h
  obtain ⟨rfl, rfl⟩ := EStateM.Result.ok.inj h
  exact ⟨w₁, rest, hcall, hrest, rfl⟩

theorem perform_cons_of_ok {call : Call} {calls : List Call}
    {trace : List (Record × Option Nat)} {w w₁ w' : Writing} (hcall : call.write w = .ok () w₁)
    (hcalls : perform calls w₁ = .ok trace w') :
    perform (call :: calls) w = .ok ((call.fields, w₁.cursor) :: trace) w' := by
  rw [perform]
  have hget : EStateM.get w₁ = (.ok w₁ w₁ : EStateM.Result Cipher.Fault _ _) := rfl
  exact (bind_of_ok hcall).trans ((bind_of_ok hget).trans ((bind_of_ok hcalls).trans rfl))

/-- A run gives the records that its calls are about. -/
theorem map_fst_of_perform {calls : List Call} {trace : List (Record × Option Nat)}
    {w w' : Writing} (h : perform calls w = .ok trace w') :
    trace.map Prod.fst = calls.map Call.fields := by
  induction calls generalizing w trace with
  | nil =>
    obtain ⟨rfl, -⟩ := EStateM.Result.ok.inj h
    rfl
  | cons call calls ih =>
    obtain ⟨w₁, rest, -, hcalls, rfl⟩ := perform_cons_eq_ok h
    rw [List.map_cons, List.map_cons, ih hcalls]

theorem replay_cons_of_ok {call : Call} {calls : List Call} {fields : Record}
    {rest : List (Record × Option Nat)} {s s₁ s' : Reading} (hcall : call.read s = .ok fields s₁)
    (hrest : replay calls s₁ = .ok rest s') :
    replay (call :: calls) s = .ok ((fields, s₁.cursor) :: rest) s' := by
  rw [replay]
  have hget : EStateM.get s₁ = (.ok s₁ s₁ : EStateM.Result Failure _ _) := rfl
  exact (bind_of_ok hcall).trans ((bind_of_ok hget).trans ((bind_of_ok hrest).trans rfl))

/-! ### One call -/

/-- A dump that takes everything, or none. -/
def Roomy (dump : Option Dump) : Prop := ∀ d ∈ dump, d.limit = none

theorem Roomy.emitTo {dump : Option Dump} (h : Roomy dump) (fields : Record) :
    (emitTo dump fields).2 = true ∧ Roomy (emitTo dump fields).1 := by
  cases dump with
  | none => exact ⟨rfl, fun d hd => absurd hd (by simp [ChipAtlas.emitTo])⟩
  | some d =>
    -- a dump without limit cuts nothing off
    have hlimit : d.limit = none := h d rfl
    simp [ChipAtlas.emitTo, Dump.write, Roomy, hlimit]

/-- A reading that stands where a writing stands: it has the lines next that are still to be
written, with other lines behind them, and it has the key stream of the writing. -/
structure Ready (s : Reading) (keys : Option KeyStream) (lines : List String)
    (rest : List Text.Line) : Prop where
  lines_eq : s.lines = lines.map .text ++ rest
  keys_eq : s.keys = keys
  roomy : Roomy s.dump

theorem Ready.line {s : Reading} {keys keys' : Option KeyStream} {raw : String}
    {lines : List String} {rest : List Text.Line} {selection : Selection} {fields : Record}
    (h : Ready s keys (raw :: lines) rest)
    (hraw : Reading.deciphered selection raw keys = .ok fields keys') :
    ∃ s', Reading.line selection s = .ok fields s' ∧ Ready s' keys' lines rest := by
  have ⟨hcomplete, hroomy⟩ := h.roomy.emitTo fields
  refine ⟨_, Reading.line_eq_ok.2 ⟨raw, _, keys', h.lines_eq, ?_, hcomplete, rfl⟩, ?_⟩
  · rw [h.keys_eq, hraw]
  · exact ⟨rfl, rfl, hroomy⟩

/-- A reader that selects nothing sees the words of the line. -/
theorem Ready.plainLine {s : Reading} {keys : Option KeyStream} {raw : String}
    {lines : List String} {rest : List Text.Line} (h : Ready s keys (raw :: lines) rest) :
    ∃ s', Reading.line (.only []) s = .ok (wordsOf raw) s' ∧ Ready s' keys lines rest :=
  h.line rfl

/-- What the writer makes of a record, the reader takes back to the record. -/
theorem deciphered_of_encipherFields {selection : Selection} {fields out : Record}
    {keys keys' : Option KeyStream} (hfits : selection.Fits fields.length)
    (hwords : ∀ f ∈ fields, IsWord f)
    (h : encipherFields (selection.indices fields.length) fields keys = .ok out keys') :
    Reading.deciphered selection (String.intercalate " " out) keys = .ok fields keys' := by
  -- the words of the line are the fields as they were written
  have ⟨hnodup, hlt⟩ := hfits.indices_nodup_lt
  rw [Reading.deciphered, Text.wordsOf_intercalate (isWord_of_encipherFields hlt hwords h),
    length_of_encipherFields hlt h]
  exact decipherFields_of_encipherFields hnodup hlt h

/-- **One call in lockstep.** A call of the writer adds at most one line. A reader that has this
line next and the writer's key stream answers the call with its record, takes the line and no other,
and ends with the key stream that the writer ends with. -/
theorem Call.read_of_write {call : Call} (hadm : call.Admissible) {w w' : Writing}
    (h : call.write w = .ok () w') :
    ∃ line : Option String, w'.lines.toList = w.lines.toList ++ line.toList ∧
      (∀ l ∈ line, '\n' ∉ l.toList) ∧
      ∀ s lines rest, Ready s w.keys (line.toList ++ lines) rest →
        ∃ s', call.read s = .ok call.fields s' ∧ Ready s' w'.keys lines rest := by
  cases call with
  | line selection fields =>
    obtain ⟨hfits, hwords⟩ := hadm
    rw [Call.write, Writing.line_eq] at h
    cases henc : encipherFields (selection.indices fields.length) fields w.keys with
    | error fault keys =>
      rw [henc] at h
      exact absurd h error_ne_ok
    | ok out keys =>
      rw [henc] at h
      obtain ⟨-, rfl⟩ := EStateM.Result.ok.inj h
      refine ⟨some (String.intercalate " " out), by simp, fun l hl => ?_, fun s lines rest hs =>
        hs.line (deciphered_of_encipherFields hfits hwords henc)⟩
      -- no field holds a line feed, and the blanks between them are none
      obtain rfl := Option.some.inj hl
      have hout := isWord_of_encipherFields hfits.indices_nodup_lt.2 hwords henc
      exact Text.lineFeed_not_mem_intercalate fun f hf => (hout f hf).lineFeed_not_mem
  | plain text =>
    obtain ⟨-, rfl⟩ := EStateM.Result.ok.inj h
    refine ⟨some text, by simp, fun l hl => ?_, fun s lines rest hs => hs.plainLine⟩
    obtain rfl := Option.some.inj hl
    exact hadm
  | blank =>
    obtain ⟨-, rfl⟩ := EStateM.Result.ok.inj h
    refine ⟨some "", by simp, fun l hl => ?_, fun s lines rest hs => ?_⟩
    · obtain rfl := Option.some.inj hl
      exact List.not_mem_nil
    -- an empty line has no words, which is what the reader asks for
    · obtain ⟨s', hline, hs'⟩ := hs.plainLine
      exact ⟨s', (bind_of_ok (Reading.blankLine_eq_ok.2 hline)).trans rfl, hs'⟩
  | setKey key =>
    simp only [Call.write, Writing.setKey] at h
    split at h
    · next keys hkeys =>
      obtain ⟨-, rfl⟩ := EStateM.Result.ok.inj h
      refine ⟨none, by simp, fun l hl => absurd hl (by simp), fun s lines rest hs => ?_⟩
      -- no line is written: both sides start the same key stream
      have hset : Reading.setKey key s = .ok () { s with keys := some keys } := by
        rw [Reading.setKey, hkeys]
      exact ⟨_, (bind_of_ok hset).trans rfl, hs.lines_eq, rfl, hs.roomy⟩
    · exact absurd h error_ne_ok
  | setKeyStream keys =>
    obtain ⟨-, rfl⟩ := EStateM.Result.ok.inj h
    exact ⟨none, by simp, fun l hl => absurd hl (by simp), fun s lines rest hs =>
      ⟨_, rfl, hs.lines_eq, rfl, hs.roomy⟩⟩

/-! ### Runs of calls -/

/-- **A run in lockstep.** The lines that a run of calls adds are answered by the replay of the run,
call by call. -/
theorem exists_lines_of_perform {calls : List Call} (hadm : ∀ call ∈ calls, call.Admissible)
    {trace : List (Record × Option Nat)} {w w' : Writing}
    (h : perform calls w = .ok trace w') :
    ∃ new : List String, w'.lines.toList = w.lines.toList ++ new ∧
      (∀ l ∈ new, '\n' ∉ l.toList) ∧
      ∀ s lines rest, Ready s w.keys (new ++ lines) rest →
        ∃ s', replay calls s = .ok trace s' ∧ Ready s' w'.keys lines rest := by
  induction calls generalizing w trace with
  | nil =>
    obtain ⟨rfl, rfl⟩ := EStateM.Result.ok.inj h
    exact ⟨[], by simp, by simp, fun s lines rest hs => ⟨s, rfl, hs⟩⟩
  | cons call calls ih =>
    obtain ⟨w₁, rest, hcall, hcalls, rfl⟩ := perform_cons_eq_ok h
    obtain ⟨line, hline, hline_feed, hread⟩ :=
      Call.read_of_write (hadm call List.mem_cons_self) hcall
    obtain ⟨new, hnew, hnew_feed, hreplay⟩ :=
      ih (fun c hc => hadm c (List.mem_cons_of_mem _ hc)) hcalls
    refine ⟨line.toList ++ new, by rw [hnew, hline, List.append_assoc], fun l hl => ?_,
      fun s lines rest' hs => ?_⟩
    · rcases List.mem_append.1 hl with hl | hl
      · exact hline_feed l (Option.mem_toList.1 hl)
      · exact hnew_feed l hl
    · rw [List.append_assoc] at hs
      -- the first call leaves the reader ready for the others
      obtain ⟨s₁, hs₁, hready₁⟩ := hread s _ _ hs
      obtain ⟨s', hs', hready'⟩ := hreplay s₁ _ _ hready₁
      -- the two sides have the same key stream behind the call, and so the same cursor
      have hcursor : s₁.cursor = w₁.cursor := by
        rw [Reading.cursor, hready₁.keys_eq, Writing.cursor]
      exact ⟨s', hcursor ▸ replay_cons_of_ok hs₁ hs', hready'⟩

/-- A writer that has a key stream carries writable calls out. -/
theorem exists_perform {calls : List Call} (hadm : ∀ call ∈ calls, call.Admissible)
    (hwritable : ∀ call ∈ calls, call.Writable) {w : Writing} (hkeys : w.keys.isSome) :
    ∃ trace w', perform calls w = .ok trace w' := by
  induction calls generalizing w with
  | nil => exact ⟨[], w, rfl⟩
  | cons call calls ih =>
    -- every call leaves a key stream behind, so the next one has what it needs
    have hcall : ∃ w₁, call.write w = .ok () w₁ ∧ w₁.keys.isSome := by
      have hwrite := hwritable call List.mem_cons_self
      cases call with
      | line selection fields =>
        obtain ⟨keys, hkeys⟩ := Option.isSome_iff_exists.1 hkeys
        obtain ⟨hfits, -⟩ := hadm _ List.mem_cons_self
        obtain ⟨out, keys', hout⟩ := exists_encipherFields hwrite hfits.indices_nodup_lt.1 keys
        exact ⟨_, by rw [Call.write, Writing.line_eq, hkeys, hout], rfl⟩
      | plain text => exact ⟨_, rfl, hkeys⟩
      | blank => exact ⟨_, rfl, hkeys⟩
      | setKey key =>
        obtain ⟨keys, hkeys⟩ := KeyStream.exists_create 0 hwrite.1 hwrite.2
        exact ⟨_, by rw [Call.write, Writing.setKey, hkeys], rfl⟩
      | setKeyStream keys => exact ⟨_, rfl, rfl⟩
    obtain ⟨w₁, hcall, hkeys₁⟩ := hcall
    obtain ⟨trace, w', hcalls⟩ := ih (fun c hc => hadm c (List.mem_cons_of_mem _ hc))
      (fun c hc => hwritable c (List.mem_cons_of_mem _ hc)) hkeys₁
    exact ⟨_, w', perform_cons_of_ok hcall hcalls⟩

/-- The text of a run, as the lines that a reader finds in it. -/
theorem ready_of_perform {calls : List Call} (hadm : ∀ call ∈ calls, call.Admissible)
    {trace : List (Record × Option Nat)} {keys : Option KeyStream} {w : Writing}
    (h : perform calls { keys } = .ok trace w) {dump : Option Dump} (hroomy : Roomy dump) :
    ∃ s, replay calls { Reading.ofBytes (utf8 w.text) dump with keys } = .ok trace s ∧
      Ready s w.keys [] [] := by
  obtain ⟨new, hnew, hfeed, hreplay⟩ := exists_lines_of_perform hadm h
  have hlines : w.lines.toList = new := by simpa using hnew
  refine hreplay _ [] [] ⟨?_, rfl, hroomy⟩
  rw [List.append_nil, List.append_nil]
  change Text.linesOf (utf8 w.text) = _
  rw [Writing.text, hlines, Text.linesOf_terminated hfeed]

/-- **Lockstep.** A key stream exists for every non-empty ASCII key and every start. Whatever calls
a writer that starts from it carries out, a reader of the written text that starts from the same key
stream and carries out the same calls gets every record as it was written, has the writer's cursor
behind every call, and finds the end of the file behind the last. -/
theorem replay_perform (key : String) (start : Nat) (hkey : key ≠ "")
    (hascii : ∀ c ∈ key.toList, Cipher.isAscii c) :
    ∃ keys, KeyStream.create key start = .ok keys ∧
      ∀ (calls : List Call) (trace : List (Record × Option Nat)) (w : Writing),
        (∀ call ∈ calls, call.Admissible) →
        perform calls { keys := some keys } = .ok trace w →
        ∃ s, replay calls { Reading.ofBytes (utf8 w.text) with keys := some keys } = .ok trace s ∧
          s.cursor = w.cursor ∧
          (∀ selection, Reading.line selection s =
            .error (.violation ⟨.unexpectedEnd, s.nextPlace⟩) (s.taken [])) ∧
          Script.blankLine.run s =
            .error (.violation ⟨.unexpectedEnd, s.nextPlace⟩) (s.taken []) ∧
          Reading.peekBlank s = .error (.violation ⟨.unexpectedEnd, s.nextPlace⟩) s := by
  obtain ⟨keys, hkeys⟩ := KeyStream.exists_create start hkey hascii
  refine ⟨keys, hkeys, fun calls trace w hadm h => ?_⟩
  obtain ⟨s, hs, hready⟩ := ready_of_perform hadm h (nofun : Roomy none)
  -- nothing stands behind the last line that was written
  have hnil : s.lines = [] := hready.lines_eq
  refine ⟨s, hs, ?_, Reading.line_nil hnil, bind_of_error (Reading.line_nil hnil _), ?_⟩
  · rw [Reading.cursor, hready.keys_eq, Writing.cursor]
  · rw [Reading.peekBlank, hnil]

/-- The key stream of a short key, started at its second symbol. -/
def mixedStart : KeyStream := ⟨['a', 'b', '!'], 1, by decide, by decide⟩

/-- Calls of every kind: positions out of order, escapes, a field outside ASCII, a line that is not
separated by single blanks, and both changes of the key stream. -/
def mixedCalls : List Call := [
  .line (.only [2, 0]) ["t~x", "plain", "q\x7d"], .line (.allBut [0, 7]) ["é", "k!"],
  .plain " a\tb ", .blank, .setKey "K", .line (.only [0]) ["z"], .setKeyStream mixedStart,
  .line (.only []) []]

theorem replay_perform_mixedCalls :
    KeyStream.create "ab!" 4 = .ok mixedStart ∧
      ∃ trace w, perform mixedCalls { keys := some mixedStart } = .ok trace w ∧
        trace = [
          (["t~x", "plain", "q\x7d"], some 0), (["é", "k!"], some 2), (["a", "b"], some 2),
          ([], some 2), ([], some 0), (["z"], some 0), ([], some 1), ([], some 1)] ∧
        w.text = "x!~< plain v!\x7d\né o&\n a\tb \n\nh\n\n" ∧
        ∃ s, replay mixedCalls { Reading.ofBytes (utf8 w.text) with keys := some mixedStart } =
            .ok trace s ∧
          s.cursor = some 1 ∧
          Reading.line (.only [0]) s =
            .error (.violation ⟨.unexpectedEnd, s.nextPlace⟩) (s.taken []) := by
  obtain ⟨keys, hkeys, hreplay⟩ := replay_perform "ab!" 4 (by decide) (by decide)
  obtain rfl : mixedStart = keys := Except.ok.inj hkeys
  have hadm : ∀ call ∈ mixedCalls, call.Admissible := by decide +kernel
  have hperform : perform mixedCalls { keys := some mixedStart } = .ok [
      (["t~x", "plain", "q\x7d"], some 0), (["é", "k!"], some 2), (["a", "b"], some 2),
      ([], some 2), ([], some 0), (["z"], some 0), ([], some 1), ([], some 1)]
      ⟨#["x!~< plain v!\x7d", "é o&", " a\tb ", "", "h", ""], some mixedStart⟩ := by
    with_unfolding_all rfl
  obtain ⟨s, hs, hcursor, hline, -⟩ := hreplay mixedCalls _ _ hadm hperform
  exact ⟨hkeys, _, _, hperform, rfl, rfl, s, hs, hcursor, hline (.only [0])⟩

end ChipAtlas
