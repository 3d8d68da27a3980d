import ChipAtlas.Proofs.Cipher.Cursor
import ChipAtlas.Proofs.Lockstep

/-!
# Records that could not be written

A writer that is given a field outside the graphic characters refuses the record. Nothing of it gets
into the text, but the fields and characters in front of the fault have taken their steps, and the
cursor stays where they have left it. The records that are written later are enciphered from there.
So a reader of the text, which knows nothing of the refused records, has to be moved on as far at
their places (`Attempt.followed`). A record that is refused at its first character to be ciphered
needs no such care.

What a writer did can be told as a row of calls in which every call succeeds: a refused record gives
way to the change of the key stream that it has made. By this the lockstep of writer and reader
applies.

* `encipherFields_eq_error` — where a record is refused;
* `Writing.perform_followed` — a row of attempts, told without the failures;
* `Writing.readsBack_of_attempts` — what was written in a row of attempts is read back;
* `Writing.not_readsBack_written` — and what a reader has to be told for this.
-/

namespace ChipAtlas

open Cipher (Direction Fault KeyStream isGraphic leadByte)
open Stateful
open Text (utf8)

/-! ### Where a record is refused -/

/-- What goes through takes one step for each character, and has only graphic ones. -/
theorem Cipher.Direction.Passes.of_enciphering {ks ks' : KeyStream} {cs out : List Char}
    (h : Passes .enciphering ks cs out ks') :
    (∀ c ∈ cs, isGraphic c) ∧ ks' = ks.moved cs.length := by
  induction h with
  | nil ks => exact ⟨nofun, ks.moved_zero.symm⟩
  | cons first others ih =>
    obtain ⟨hgraphic, rfl⟩ := ih
    cases first with
    | written hc =>
      refine ⟨List.forall_mem_cons.2 ⟨hc, hgraphic⟩, ?_⟩
      rw [KeyStream.advance_eq_moved, KeyStream.moved_moved, List.length_append,
        List.length_singleton]

/-- A field that is enciphered has moved the key stream by its characters. -/
theorem moved_of_encipherField {field text : String} {ks : KeyStream} {keys' : Option KeyStream}
    (h : encipherField field (some ks) = .ok text keys') :
    (∀ c ∈ field.toList, isGraphic c) ∧ keys' = some (ks.moved field.toList.length) := by
  obtain ⟨_, ks', hks, rfl, hrun⟩ := encipherField_eq_ok h
  obtain rfl := Option.some.inj hks
  have hpasses : Direction.Passes .enciphering ks field.toList text.toList ks' :=
    Direction.run_eq_ok.1 hrun
  obtain ⟨hgraphic, rfl⟩ := hpasses.of_enciphering
  exact ⟨hgraphic, rfl⟩

/-- A field that is refused has moved the key stream by the characters in front of the first that
is not graphic. -/
theorem encipherField_eq_error {field : String} {ks : KeyStream} {keys' : Option KeyStream}
    {fault : Fault} (h : encipherField field (some ks) = .error fault keys') :
    ∃ done c rest, field.toList = done ++ c :: rest ∧ (∀ c ∈ done, isGraphic c) ∧ ¬isGraphic c ∧
      fault = .unencodable (leadByte c) ∧ keys' = some (ks.moved done.length) := by
  rw [encipherField] at h
  cases hrun : KeyStream.encipher field ks with
  | ok text ks₁ =>
    rw [hrun] at h
    exact absurd h ok_ne_error
  | error fault' ks₁ =>
    rw [hrun] at h
    obtain ⟨rfl, rfl⟩ := EStateM.Result.error.inj h
    have hchars : Direction.enciphering.runChars field.toList ks = .error fault' ks₁ :=
      Direction.run_eq_error_iff.1 hrun
    obtain ⟨done, rest, out, ks₂, extra, hsplit, hdone, hrest, rfl⟩ :=
      Direction.runChars_eq_error.1 hchars
    obtain ⟨hgraphic, rfl⟩ := hdone.of_enciphering
    cases hrest with
    | @unwritable c rest hc =>
      exact ⟨done, c, rest, hsplit, hgraphic, hc, rfl, by rw [KeyStream.moved_zero]⟩

/-- **Where a record is refused.** The texts at distinct positions are enciphered like one text. If
this fails, it fails at the first character that is not graphic, and the key stream has been moved
by the characters in front of it. -/
theorem encipherFields_eq_error {indices : List Nat} {fields : Record} {ks : KeyStream}
    {keys' : Option KeyStream} {fault : Fault} (hnodup : indices.Nodup)
    (h : encipherFields indices fields (some ks) = .error fault keys') :
    ∃ done c rest, (indices.filterMap (fields[·]?)).flatMap String.toList = done ++ c :: rest ∧
      (∀ c ∈ done, isGraphic c) ∧ ¬isGraphic c ∧ fault = .unencodable (leadByte c) ∧
      keys' = some (ks.moved done.length) := by
  induction indices generalizing fields ks with
  | nil => exact absurd h ok_ne_error
  | cons i indices ih =>
    obtain ⟨hi, hnodup⟩ := List.nodup_cons.1 hnodup
    rw [encipherFields] at h
    cases hget : fields[i]? with
    | none =>
      rw [hget] at h
      rw [List.filterMap_cons_none hget]
      exact ih hnodup h
    | some field =>
      rw [hget] at h
      dsimp only at h
      rw [List.filterMap_cons_some hget, List.flatMap_cons]
      cases hfield : encipherField field (some ks) with
      | error fault' keys₁ =>
        rw [hfield] at h
        obtain ⟨rfl, rfl⟩ := EStateM.Result.error.inj h
        -- the field itself is where it ends
        obtain ⟨done, c, rest, hsplit, hgraphic, hc, rfl, rfl⟩ := encipherField_eq_error hfield
        exact ⟨done, c, rest ++ _, by rw [hsplit, List.append_assoc]; rfl, hgraphic, hc, rfl, rfl⟩
      | ok text keys₁ =>
        rw [hfield] at h
        obtain ⟨hgraphic, rfl⟩ := moved_of_encipherField hfield
        obtain ⟨done, c, rest, hsplit, hdone, hc, rfl, rfl⟩ := ih hnodup h
        -- the positions that are left are others, and their texts as they were
        have hothers : indices.filterMap ((fields.set i text)[·]?) =
            indices.filterMap (fields[·]?) := by
          refine List.filterMap_congr fun j hj => ?_
          have hij : i ≠ j := fun heq => hi (heq ▸ hj)
          exact List.getElem?_set_ne hij
        rw [hothers] at hsplit
        refine ⟨field.toList ++ done, c, rest, by rw [hsplit, List.append_assoc], ?_, hc, rfl, ?_⟩
        · exact fun c hc => (List.mem_append.1 hc).elim (hgraphic c) (hdone c)
        · rw [KeyStream.moved_moved, List.length_append]

/-- Whatever comes of enciphering, the key stream goes on with its key. -/
theorem exists_moved_encipherFields (indices : List Nat) (fields : Record) (ks : KeyStream) :
    ∃ steps, endState (encipherFields indices fields (some ks)) = some (ks.moved steps) := by
  induction indices generalizing fields ks with
  | nil => exact ⟨0, congrArg some ks.moved_zero.symm⟩
  | cons i indices ih =>
    rw [encipherFields]
    cases fields[i]? with
    | none => exact ih fields ks
    | some field =>
      dsimp only
      cases hfield : encipherField field (some ks) with
      | error fault keys₁ =>
        obtain ⟨done, _, _, -, -, -, -, rfl⟩ := encipherField_eq_error hfield
        exact ⟨done.length, rfl⟩
      | ok text keys₁ =>
        obtain ⟨-, rfl⟩ := moved_of_encipherField hfield
        obtain ⟨more, hmore⟩ := ih (fields.set i text) (ks.moved field.toList.length)
        exact ⟨field.toList.length + more, by rw [hmore, KeyStream.moved_moved]⟩

/-- Without a key stream, a record is refused for this and for nothing else. -/
theorem eq_noKey_of_encipherFields_eq_error {indices : List Nat} {fields : Record} {fault : Fault}
    {keys' : Option KeyStream} (h : encipherFields indices fields none = .error fault keys') :
    fault = .noKey ∧ keys' = none := by
  induction indices with
  | nil => exact absurd h ok_ne_error
  | cons i indices ih =>
    rw [encipherFields] at h
    cases hget : fields[i]? with
    | none =>
      rw [hget] at h
      exact ih h
    | some field =>
      rw [hget] at h
      obtain ⟨rfl, rfl⟩ := EStateM.Result.error.inj h
      exact ⟨rfl, rfl⟩

namespace Writing

/-- The characters of a record that are to be ciphered, in the order in which this is done. A
position past the last field has none. -/
def chosenChars (selection : Selection) (fields : Record) : List Char :=
  ((selection.indices fields.length).filterMap (fields[·]?)).flatMap String.toList

/-- A record that is refused changes at most the key stream. -/
theorem encipherFields_of_line_eq_error {selection : Selection} {fields : Record} {fault : Fault}
    {w w' : Writing} (h : line selection fields w = .error fault w') :
    encipherFields (selection.indices fields.length) fields w.keys = .error fault w'.keys ∧
      w' = { w with keys := w'.keys } := by
  rw [line_eq] at h
  cases henc : encipherFields (selection.indices fields.length) fields w.keys with
  | ok out keys =>
    rw [henc] at h
    exact absurd h ok_ne_error
  | error fault' keys =>
    rw [henc] at h
    obtain ⟨rfl, rfl⟩ := EStateM.Result.error.inj h
    exact ⟨rfl, rfl⟩

/-! ### Rows of attempts -/

/-- An attempt to write a record, from a writing. -/
structure Attempt where
  selection : Selection
  fields : Record
  before : Writing

namespace Attempt

/-- The call that is made. -/
def call (a : Attempt) : Call := .line a.selection a.fields

/-- What comes of it. -/
def outcome (a : Attempt) : EStateM.Result Fault Writing Unit := a.call.write a.before

/-- The record was written. -/
def Succeeds (a : Attempt) : Prop := ∃ w, a.outcome = .ok () w

instance (a : Attempt) : Decidable a.Succeeds :=
  match h : a.outcome with
  | .ok _ w => isTrue ⟨w, h⟩
  | .error _ _ => isFalse fun ⟨_, hok⟩ => error_ne_ok (h.symm.trans hok)

/-- The call, the record and the cursor behind it, if the record was written. -/
def written (a : Attempt) : List (Call × Record × Option Nat) :=
  match a.outcome with
  | .ok _ w => [(a.call, a.fields, w.cursor)]
  | .error _ _ => []

/-- The same, and for a record that was refused the change of the key stream, if there is one. -/
def followed (a : Attempt) : List (Call × Record × Option Nat) :=
  match a.outcome with
  | .ok _ w => [(a.call, a.fields, w.cursor)]
  | .error _ w =>
    if w.keys = a.before.keys then []
    else w.keys.toList.map fun keys => (.setKeyStream keys, [], w.cursor)

/-- **One attempt, told without the failure.** What is done behind the attempt is done in the same
way behind the calls that stand for it. -/
theorem perform_followed (a : Attempt) {calls : List Call} {trace : List (Record × Option Nat)}
    {w : Writing} (h : perform calls (endState a.outcome) = .ok trace w) :
    perform (a.followed.map Prod.fst ++ calls) a.before =
      .ok (a.followed.map Prod.snd ++ trace) w := by
  cases hout : a.outcome with
  | ok done w₁ =>
    rw [hout] at h
    rw [followed, hout]
    exact perform_cons_of_ok hout h
  | error fault w₁ =>
    rw [hout] at h
    rw [followed, hout]
    obtain ⟨henc, hw₁⟩ := encipherFields_of_line_eq_error hout
    dsimp only
    split
    next hsame =>
      obtain rfl : w₁ = a.before := by rw [hw₁, hsame]
      exact h
    next hmoved =>
      cases hkeys : a.before.keys with
      | none =>
        -- without a key stream there is none behind the failure either
        rw [hkeys] at henc
        exact absurd ((eq_noKey_of_encipherFields_eq_error henc).2.trans hkeys.symm) hmoved
      | some ks =>
        rw [hkeys] at henc
        obtain ⟨steps, hsteps⟩ := exists_moved_encipherFields _ _ ks
        rw [henc] at hsteps
        obtain hsteps : w₁.keys = some (ks.moved steps) := hsteps
        rw [hsteps]
        have hset : (Call.setKeyStream (ks.moved steps)).write a.before = .ok () w₁ := by
          rw [hw₁, hsteps]
          rfl
        exact perform_cons_of_ok hset h

/-- The calls that stand for an attempt are those of the record, if it was written. -/
theorem filter_followed (a : Attempt) :
    a.followed.filter (fun e => e.1 matches .line _ _) = a.written := by
  rw [followed, written]
  cases a.outcome with
  | ok done w => rfl
  | error fault w =>
    dsimp only
    split
    · rfl
    · cases w.keys <;> rfl

theorem followed_eq_written {a : Attempt}
    (h : ¬a.Succeeds → (endState a.outcome).keys = a.before.keys) : a.followed = a.written := by
  rw [followed, written]
  cases hout : a.outcome with
  | ok done w => rfl
  | error fault w =>
    have hfail : ¬a.Succeeds := by
      rintro ⟨w', hw'⟩
      exact error_ne_ok (hout.symm.trans hw')
    rw [hout] at h
    exact if_pos (h hfail)

theorem admissible_of_mem_followed {a : Attempt} (h : a.Succeeds → a.call.Admissible)
    {e : Call × Record × Option Nat} (he : e ∈ a.followed) : e.1.Admissible := by
  rw [followed] at he
  cases hout : a.outcome with
  | ok done w =>
    rw [hout] at he
    obtain rfl := List.mem_singleton.1 he
    exact h ⟨w, hout⟩
  | error fault w =>
    rw [hout] at he
    dsimp only at he
    split at he
    · exact absurd he List.not_mem_nil
    · -- a change of the key stream is always admissible
      obtain ⟨keys, -, rfl⟩ := List.mem_map.1 he
      trivial

end Attempt

/-- Attempts one after the other. One that fails does not keep the next one from being made. -/
def attempts : List (Selection × Record) → Writing → List Attempt
  | [], _ => []
  | (selection, fields) :: records, w =>
    ⟨selection, fields, w⟩ :: attempts records (endState (line selection fields w))

/-- The writing behind a row of attempts. -/
def after (records : List (Selection × Record)) (w : Writing) : Writing :=
  records.foldl (fun w record => endState (line record.1 record.2 w)) w

/-- The records that were written. -/
def written (records : List (Selection × Record)) (w : Writing) :
    List (Call × Record × Option Nat) := (attempts records w).flatMap Attempt.written

/-- The records that were written, with the changes of the key stream in between. -/
def followed (records : List (Selection × Record)) (w : Writing) :
    List (Call × Record × Option Nat) := (attempts records w).flatMap Attempt.followed

/-- What was written between two writings is read back by a row of calls: a reader that starts from
the key stream of the first gets from each call its record, has behind it the cursor that the writer
had, and has read everything at the end. -/
def ReadsBack (trace : List (Call × Record × Option Nat)) (w w' : Writing) : Prop :=
  ∃ text s, w'.text = w.text ++ text ∧
    replay (trace.map Prod.fst) { Reading.ofBytes (utf8 text) with keys := w.keys } =
      .ok (trace.map Prod.snd) s ∧ s.lines = []

/-- A row of attempts, told without the failures. -/
theorem perform_followed (records : List (Selection × Record)) (w : Writing) :
    perform ((followed records w).map Prod.fst) w =
      .ok ((followed records w).map Prod.snd) (after records w) := by
  induction records generalizing w with
  | nil => rfl
  | cons record records ih =>
    obtain ⟨selection, fields⟩ := record
    rw [followed, attempts, List.flatMap_cons, List.map_append, List.map_append]
    exact Attempt.perform_followed ⟨selection, fields, w⟩ (ih _)

/-- The lockstep of writer and reader, for a row of attempts. -/
theorem readsBack_followed {records : List (Selection × Record)} {w : Writing}
    (hadm : ∀ a ∈ attempts records w, a.Succeeds → a.call.Admissible) :
    ReadsBack (followed records w) w (after records w) := by
  have hcalls : ∀ call ∈ (followed records w).map Prod.fst, call.Admissible := by
    intro call hcall
    obtain ⟨e, he, rfl⟩ := List.mem_map.1 hcall
    obtain ⟨a, ha, he⟩ := List.mem_flatMap.1 he
    exact Attempt.admissible_of_mem_followed (hadm a ha) he
  obtain ⟨new, hnew, hfeed, hreplay⟩ := exists_lines_of_perform hcalls (perform_followed records w)
  refine ⟨String.join (new.map (· ++ "\n")), ?_⟩
  obtain ⟨s, hs, hready⟩ := hreplay
    { Reading.ofBytes (utf8 (String.join (new.map (· ++ "\n")))) with keys := w.keys } [] []
    ⟨by simpa [Reading.ofBytes] using Text.linesOf_terminated hfeed, rfl, nofun⟩
  refine ⟨s, ?_, hs, hready.lines_eq⟩
  rw [text, hnew, List.map_append, String.join_append]
  rfl

/-- **Records that could not be written.** A record that is refused adds nothing to the text. The
key stream is left behind the graphic characters in front of the fault, if no position is listed
twice, and is left alone if there is none. After any row of attempts, the records that were written
are read back, with the cursor behind each of them, by a reader that is moved on where a refused
record has moved the writer; if none has, the reader needs only the calls that succeeded. -/
theorem readsBack_of_attempts :
    (∀ {selection : Selection} {fields : Record} {fault : Fault} {w w' : Writing},
      line selection fields w = .error fault w' →
        w'.lines = w.lines ∧ (w.keys = none → fault = .noKey ∧ w' = w) ∧
        ∀ ks, w.keys = some ks → (selection.indices fields.length).Nodup →
          ∃ done c rest, chosenChars selection fields = done ++ c :: rest ∧
            (∀ c ∈ done, isGraphic c) ∧ ¬isGraphic c ∧ fault = .unencodable (leadByte c) ∧
            w'.keys = some (ks.moved done.length)) ∧
    ∀ (records : List (Selection × Record)) (w : Writing),
      (∀ a ∈ attempts records w, a.Succeeds → a.call.Admissible) →
        ReadsBack (followed records w) w (after records w) ∧
        (followed records w).filter (fun e => e.1 matches .line _ _) = written records w ∧
        ((∀ a ∈ attempts records w, ¬a.Succeeds → (endState a.outcome).keys = a.before.keys) →
          ReadsBack (written records w) w (after records w)) := by
  refine ⟨fun {selection fields fault w w'} h => ?_, fun records w hadm => ?_⟩
  · obtain ⟨henc, hw'⟩ := encipherFields_of_line_eq_error h
    refine ⟨by rw [hw'], fun hkeys => ?_, fun ks hks hnodup => ?_⟩
    · rw [hkeys] at henc
      obtain ⟨hfault, hnone⟩ := eq_noKey_of_encipherFields_eq_error henc
      exact ⟨hfault, by rw [hw', hnone, ← hkeys]⟩
    · rw [hks] at henc
      exact encipherFields_eq_error hnodup henc
  · have hfollowed := readsBack_followed hadm
    refine ⟨hfollowed, ?_, fun hunmoved => ?_⟩
    · rw [followed, written, List.filter_flatMap]
      exact congrArg (List.flatMap · _) (funext Attempt.filter_followed)
    · have hsame : followed records w = written records w :=
        List.flatMap_congr fun a ha => Attempt.followed_eq_written (hunmoved a ha)
      rwa [hsame] at hfollowed

/-- A writing at the start of a short key. -/
def firstWriting : Writing := { keys := some ⟨"ab!".toList, 0, by decide, by decide⟩ }

/-- Records of which the first is refused behind a character, and the third at once. -/
def faultyRecords : List (Selection × Record) := [
  (.only [0], ["aé", "x"]), (.only [0], ["ab"]), (.allBut [1], ["é", "x"]),
  (.allBut [0], ["p", "q~"])]

theorem readsBack_of_attempts_faultyRecords :
    (∃ fault w', line (.only [0]) ["aé", "x"] firstWriting = .error fault w' ∧
      w'.lines = firstWriting.lines ∧ w'.cursor = some 1) ∧
    (∀ a ∈ attempts faultyRecords firstWriting, a.Succeeds → a.call.Admissible) ∧
    (followed faultyRecords firstWriting).map Prod.snd =
      [([], some 1), (["ab"], some 0), (["p", "q~"], some 2)] ∧
    ReadsBack (followed faultyRecords firstWriting) firstWriting
      (after faultyRecords firstWriting) ∧
    (∀ a ∈ attempts faultyRecords.tail firstWriting,
      ¬a.Succeeds → (endState a.outcome).keys = a.before.keys) ∧
    ReadsBack (written faultyRecords.tail firstWriting) firstWriting
      (after faultyRecords.tail firstWriting) := by
  have hadm : ∀ a ∈ attempts faultyRecords firstWriting, a.Succeeds → a.call.Admissible := by
    decide +kernel
  have hadm' : ∀ a ∈ attempts faultyRecords.tail firstWriting,
      a.Succeeds → a.call.Admissible := by decide +kernel
  have hunmoved : ∀ a ∈ attempts faultyRecords.tail firstWriting,
      ¬a.Succeeds → (endState a.outcome).keys = a.before.keys := by decide +kernel
  obtain ⟨hrefused, hrows⟩ := readsBack_of_attempts
  have hline : line (.only [0]) ["aé", "x"] firstWriting = .error (.unencodable 0xC3)
      { firstWriting with keys := firstWriting.keys.map (·.moved 1) } := by
    with_unfolding_all rfl
  exact ⟨⟨_, _, hline, (hrefused hline).1, rfl⟩, hadm, by decide +kernel, (hrows _ _ hadm).1,
    hunmoved, (hrows _ _ hadm').2.2 hunmoved⟩

/-- Rows with a record that is refused. In the first, this moves the cursor. In the others, another
record is none that a reader can give: a field that is no word, a position that is listed twice, and
a position past the end. -/
def misreadRecords : List (List (Selection × Record)) := [
  [(.only [0], ["aé"]), (.only [0], ["ab"])], [(.only [0], ["é"]), (.only [], ["a b"])],
  [(.only [0], ["é"]), (.only [0, 0], ["~"])], [(.only [0], ["é"]), (.only [1], ["a"])]]

/-- **What a reader has to be told.** The calls that succeeded are not enough if a refused record
has moved the cursor. Even if none has, the records have to be such that a reader can give them. -/
theorem not_readsBack_written :
    (after [(.only [0], ["aé"])] firstWriting).cursor ≠ firstWriting.cursor ∧
    ∀ records ∈ misreadRecords,
      ¬ReadsBack (written records firstWriting) firstWriting (after records firstWriting) := by
  have hfeed : ∀ records ∈ misreadRecords, ∀ l ∈ (after records firstWriting).lines.toList,
      '\n' ∉ l.toList := by decide +kernel
  have hgiven : ∀ records ∈ misreadRecords,
      (match replay ((written records firstWriting).map Prod.fst)
        { lines := (after records firstWriting).lines.toList.map .text,
          keys := firstWriting.keys } with
      | .ok given _ => decide (given = (written records firstWriting).map Prod.snd)
      | .error _ _ => false) = false := by decide +kernel
  refine ⟨by decide +kernel, fun records hrecords => ?_⟩
  rintro ⟨text, s, htext, hreplay, -⟩
  -- nothing has been written before, so this is the whole text
  obtain rfl : (after records firstWriting).text = text := htext.trans String.empty_append
  rw [Reading.ofBytes, Writing.text, Text.linesOf_terminated (hfeed records hrecords)] at hreplay
  have hother := hgiven records hrecords
  rw [hreplay] at hother
  simp at hother

end Writing

end ChipAtlas
