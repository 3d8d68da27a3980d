import ChipAtlas.Database
import ChipAtlas.Proofs.Reading.Dump
import ChipAtlas.Proofs.Script.Works

/-!
# The sink of the dump

The dump is written while a file is read, and a sink that is full stops the reading. Apart from that
the sink has no part in it: a reading without a dump, or with a sink that takes all of it, is the
reading with an unlimited sink, and a sink that takes less ends the reading as soon as it has what
it takes.

Two readings are compared step by step, one into an unlimited sink and one into another. The
invariant is that the other sink holds the part that it takes of what the unlimited one holds
(`Sink.holding`). A step either keeps it, or it is the step whose bytes are the first that the other
sink does not take (`Reading.SinkBlind`). From then on only the first of the two readings goes on,
and what it adds lies behind the cut.

* `emitTo_holding` — one record, into the two sinks;
* `Reading.sinkBlind_line` — one line;
* `Reading.SinkBlind.bind` — two works one after the other, with the cut in either of them;
* `Reading.exists_decode_full` — every file, into every sink.
-/

namespace ChipAtlas

open Stateful
open Text (utf8)

/-! ### Sinks -/

/-- A sink beside the unlimited one: none at all, or one that takes a number of bytes in all. -/
inductive Sink where
  | absent
  | limited (size : Nat)
  deriving DecidableEq, Repr

namespace Sink

/-- The sink takes the bytes to the last. A sink that is not there refuses nothing. -/
def Takes : Sink → Array UInt8 → Prop
  | absent, _ => True
  | limited size, bytes => bytes.size ≤ size

instance (sink : Sink) (bytes : Array UInt8) : Decidable (sink.Takes bytes) :=
  match sink with
  | absent => inferInstanceAs (Decidable True)
  | limited size => inferInstanceAs (Decidable (bytes.size ≤ size))

/-- The dump in the sink after bytes have been written. -/
def holding : Sink → Array UInt8 → Option Dump
  | absent, _ => none
  | limited size, bytes => some { bytes := bytes.take size, limit := some size }

variable {sink : Sink} {bytes more : Array UInt8}

/-- What stands in front of bytes that are taken is taken. -/
theorem takes_of_append (h : sink.Takes (bytes ++ more)) : sink.Takes bytes := by
  cases sink with
  | absent => trivial
  | limited size =>
    have hsize : (bytes ++ more).size ≤ size := h
    rw [Array.size_append] at hsize
    exact Nat.le_of_add_right_le hsize

/-- What stands behind the cut is not in the sink. -/
theorem holding_append (h : ¬ sink.Takes bytes) :
    sink.holding (bytes ++ more) = sink.holding bytes := by
  cases sink with
  | absent => exact absurd trivial h
  | limited size =>
    have hsize : size ≤ bytes.size := Nat.le_of_lt (Nat.lt_of_not_le h)
    have htake : (bytes ++ more).take size = bytes.take size := by
      rw [Array.take_eq_extract, Array.extract_append, Nat.sub_eq_zero_of_le hsize]
      simp
    rw [holding, holding, htake]

/-- A limited sink is empty at first. -/
theorem holding_empty (size : Nat) : (limited size).holding #[] = some { limit := some size } := by
  simp [holding]

end Sink

/-- A record as the bytes of a line of the dump. -/
def dumpBytes (record : Record) : Array UInt8 := (utf8 (dumpLine record)).toArray

theorem emitTo_unlimited (before : Array UInt8) (record : Record) :
    emitTo (some ⟨before, none⟩) record = (some ⟨before ++ dumpBytes record, none⟩, true) := rfl

/-- **One record, into another sink.** A sink that has taken everything so far holds what it takes
of the record as well, and it has taken all of it unless it is full. -/
theorem emitTo_holding {sink : Sink} {before : Array UInt8} (h : sink.Takes before)
    (record : Record) :
    emitTo (sink.holding before) record =
      (sink.holding (before ++ dumpBytes record),
        decide (sink.Takes (before ++ dumpBytes record))) := by
  cases sink with
  | absent => rfl
  | limited size =>
    -- nothing was cut off so far, so both sinks write behind the same bytes
    have hbefore : before.take size = before := Array.extract_eq_self_of_le h
    change (some _, _) = _
    rw [Sink.holding, hbefore]
    rfl

namespace Reading

/-! ### Readings into another sink -/

/-- The reading with another dump. -/
def withDump (s : Reading) (dump : Option Dump) : Reading := { s with dump }

@[simp] theorem withDump_keys (s : Reading) (dump : Option Dump) :
    (s.withDump dump).keys = s.keys := rfl

@[simp] theorem withDump_dump (s : Reading) (dump : Option Dump) :
    (s.withDump dump).dump = dump := rfl

/-- What a reading into an unlimited sink with some bytes in it says about the reading into another
sink that has taken these bytes: it is the same reading if the sink takes all the bytes that the
work adds, and otherwise it fails with the sink full. -/
structure Shadows {α : Type} (m : Read α) (s : Reading) (sink : Sink)
    (before after : Array UInt8) : Prop where
  same : sink.Takes after → m (s.withDump (sink.holding before)) =
    mapState (·.withDump (sink.holding after)) (m s)
  stopped : ¬ sink.Takes after → ∃ t, m (s.withDump (sink.holding before)) =
    .error (.io ⟨.shortWrite, .nothing⟩) t ∧ t.dump = sink.holding after

/-- On a reading, a work takes no notice of the sink except for being stopped by it. Into an
unlimited sink it only adds bytes. -/
def SinkBlindAt {α : Type} (m : Read α) (s : Reading) : Prop :=
  ∀ before, s.dump = some ⟨before, none⟩ →
    ∃ more, (endState (m s)).dump = some ⟨before ++ more, none⟩ ∧
      ∀ sink : Sink, sink.Takes before → Shadows m s sink before (before ++ more)

/-- A work that takes no notice of the sink, whatever the reading is. -/
def SinkBlind {α : Type} (m : Read α) : Prop := ∀ s, SinkBlindAt m s

variable {α β : Type} {m : Read α} {f : α → Read β} {s : Reading} {sink : Sink}
  {before mid after : Array UInt8}

/-! ### Works one after the other -/

/-- A failure of the first work is the failure of both. -/
theorem Shadows.bind_of_error {e : Failure} {s₁ : Reading} (hm : m s = .error e s₁)
    (h : Shadows m s sink before after) : Shadows (m >>= f) s sink before after := by
  have hsame := h.same
  rw [hm] at hsame
  refine ⟨fun htakes => ?_, fun hfull => ?_⟩
  · rw [Stateful.bind_of_error hm]
    exact Stateful.bind_of_error (hsame htakes)
  · obtain ⟨t, ht, hdump⟩ := h.stopped hfull
    exact ⟨t, Stateful.bind_of_error ht, hdump⟩

/-- The second work goes on where the first one ended, or the sink was full before it began. -/
theorem Shadows.bind {a : α} {s₁ : Reading} {more : Array UInt8} (hm : m s = .ok a s₁)
    (h : Shadows m s sink before mid)
    (h' : sink.Takes mid → Shadows (f a) s₁ sink mid (mid ++ more)) :
    Shadows (m >>= f) s sink before (mid ++ more) := by
  have hend : (m >>= f) s = f a s₁ := bind_of_ok hm
  have hsame := h.same
  rw [hm] at hsame
  by_cases hmid : sink.Takes mid
  · -- both readings have come to the second work
    have hother : (m >>= f) (s.withDump (sink.holding before)) =
        f a (s₁.withDump (sink.holding mid)) := bind_of_ok (hsame hmid)
    have hsecond := h' hmid
    refine ⟨fun htakes => ?_, fun hfull => ?_⟩
    · rw [hother, hend]
      exact hsecond.same htakes
    · rw [hother]
      exact hsecond.stopped hfull
  · -- the sink was full in the first work, and what the second one adds lies behind the cut
    refine ⟨fun htakes => absurd (Sink.takes_of_append htakes) hmid, fun _ => ?_⟩
    obtain ⟨t, ht, hdump⟩ := h.stopped hmid
    refine ⟨t, Stateful.bind_of_error ht, ?_⟩
    rw [hdump, Sink.holding_append hmid]

/-- **Works one after the other.** -/
theorem SinkBlind.bind (hm : SinkBlind m) (hf : ∀ a, SinkBlind (f a)) : SinkBlind (m >>= f) := by
  intro s before hs
  obtain ⟨more, hdump, hshadows⟩ := hm s before hs
  cases hms : m s with
  | error e s₁ =>
    refine ⟨more, ?_, fun sink htakes => (hshadows sink htakes).bind_of_error hms⟩
    rw [Stateful.bind_of_error hms]
    rw [hms] at hdump
    exact hdump
  | ok a s₁ =>
    rw [hms] at hdump
    obtain ⟨more', hdump', hshadows'⟩ := hf a s₁ (before ++ more) hdump
    refine ⟨more ++ more', ?_, fun sink htakes => ?_⟩
    · rw [bind_of_ok hms, hdump', Array.append_assoc]
    · rw [← Array.append_assoc]
      exact (hshadows sink htakes).bind hms (hshadows' sink)

/-! ### Single works -/

/-- Where the outcome of a work is the same for every dump, and the dump is left alone, the work
takes no notice of the sink. -/
theorem sinkBlindAt_of_outcome (r : EStateM.Result Failure Reading α)
    (h : ∀ dump, m (s.withDump dump) = mapState (·.withDump dump) r) : SinkBlindAt m s := by
  intro before hs
  have hself : m s = mapState (·.withDump s.dump) r := h s.dump
  have hdump : (endState (m s)).dump = s.dump := by
    rw [hself, endState_mapState, withDump_dump]
  refine ⟨#[], ?_, fun sink htakes => ?_⟩
  · rw [hdump, hs, Array.append_empty]
  · rw [Array.append_empty]
    refine ⟨fun _ => ?_, fun hfull => absurd htakes hfull⟩
    rw [h, hself]
    cases r <;> rfl

theorem sinkBlind_setKey (key : String) : SinkBlind (setKey key) := by
  refine fun s => sinkBlindAt_of_outcome (setKey key s) fun dump => ?_
  simp only [setKey]
  cases Cipher.KeyStream.create key 0 <;> rfl

theorem sinkBlind_peekBlank : SinkBlind peekBlank := by
  refine fun s => sinkBlindAt_of_outcome (peekBlank s) fun dump => ?_
  cases hlines : s.lines with
  | nil =>
    rw [peekBlank_nil hlines, peekBlank_nil (s := s.withDump dump) hlines]
    rfl
  | cons first rest =>
    cases first with
    | unreadable =>
      rw [peekBlank_unreadable hlines, peekBlank_unreadable (s := s.withDump dump) hlines]
      rfl
    | text raw =>
      rw [peekBlank_text hlines, peekBlank_text (s := s.withDump dump) hlines]
      rfl

/-- **One line.** The record of the line is all that it adds, and the line is what it would be with
an unlimited sink unless the record does not go in. -/
theorem sinkBlind_line (selection : Selection) : SinkBlind (line selection) := by
  intro s
  cases hlines : s.lines with
  | nil =>
    refine sinkBlindAt_of_outcome (line selection s) fun dump => ?_
    rw [line_nil hlines, line_nil (s := s.withDump dump) hlines]
    rfl
  | cons first rest =>
    cases first with
    | unreadable =>
      refine sinkBlindAt_of_outcome (line selection s) fun dump => ?_
      rw [line_unreadable hlines, line_unreadable (s := s.withDump dump) hlines]
      rfl
    | text raw =>
      have hself := line_text hlines selection
      have hother (dump : Option Dump) := line_text (s := s.withDump dump) hlines selection
      cases hd : deciphered selection raw s.keys with
      | error cause keys =>
        -- a line that is not deciphered is not dumped either
        simp only [withDump_keys, hd] at hself hother
        refine sinkBlindAt_of_outcome (line selection s) fun dump => ?_
        rw [hself, hother]
        rfl
      | ok fields keys =>
        intro before hs
        simp only [withDump_keys, withDump_dump, hd] at hself hother
        rw [hs, emitTo_unlimited, if_pos rfl] at hself
        refine ⟨dumpBytes fields, ?_, fun sink htakes => ?_⟩
        · rw [hself]
          rfl
        · -- the record goes into the other sink as a whole, or it fills it
          have hother := hother (sink.holding before)
          simp only [emitTo_holding htakes, decide_eq_true_eq] at hother
          refine ⟨fun hmore => ?_, fun hfull => ?_⟩
          · rw [hother, hself, if_pos hmore]
            rfl
          · rw [if_neg hfull] at hother
            exact ⟨_, hother, rfl⟩

theorem sinkBlind_scan (stop : Record → Bool)
    (h : ∀ lines record, SinkBlind (scanLines stop lines record)) : SinkBlind (scan stop) := by
  intro s before hs
  obtain ⟨more, hdump, hshadows⟩ := h s.lines 0 s before hs
  -- the sink has no part in which lines bound the search
  exact ⟨more, hdump, fun sink htakes =>
    ⟨(hshadows sink htakes).same, (hshadows sink htakes).stopped⟩⟩

theorem compositional_sinkBlind : Compositional @SinkBlind where
  pure a s := sinkBlindAt_of_outcome (.ok a s) fun _ => rfl
  bind := SinkBlind.bind
  refuse cause s := sinkBlindAt_of_outcome (refuse cause s) fun _ => rfl
  breach index s := sinkBlindAt_of_outcome (.error (.breach index) s) fun _ => rfl
  line := sinkBlind_line
  peekBlank := sinkBlind_peekBlank
  scan := sinkBlind_scan
  enter part s := sinkBlindAt_of_outcome (enter part s) fun _ => rfl
  setRecord record s := sinkBlindAt_of_outcome (setRecord record s) fun _ => rfl
  setKey := sinkBlind_setKey
  note event s := sinkBlindAt_of_outcome (note event s) fun _ => rfl
  noteLines event s := sinkBlindAt_of_outcome (noteLines event s) fun _ => rfl

end Reading

/-! ### Files -/

/-- **The sink has no part in a reading.** For every file there is a text that is the dump into an
unlimited sink. Without a dump the outcome is the same. So it is with a sink that takes the whole
text, which then stands in it. With a sink that takes less, the reading fails because the sink is
full, and the sink holds as much of the text as it takes. -/
theorem exists_decode_full (bytes : List UInt8) :
    ∃ full : Array UInt8, (endState (decode bytes (some {}))).dump = some ⟨full, none⟩ ∧
      decode bytes none = mapState (·.withDump none) (decode bytes (some {})) ∧
      ∀ size,
        (full.size ≤ size → decode bytes (some { limit := some size }) =
          mapState (·.withDump (some ⟨full, some size⟩)) (decode bytes (some {}))) ∧
        (size < full.size → ∃ s, decode bytes (some { limit := some size }) =
          .error (.io ⟨.shortWrite, .nothing⟩) s ∧ s.dump = some ⟨full.take size, some size⟩) := by
  obtain ⟨full, hdump, hshadows⟩ :=
    Reading.compositional_sinkBlind.run Database.script (.ofBytes bytes (some {})) #[] rfl
  rw [Array.empty_append] at hdump hshadows
  refine ⟨full, hdump, (hshadows .absent trivial).same trivial, fun size => ?_⟩
  obtain ⟨hsame, hstopped⟩ := hshadows (.limited size) (Nat.zero_le size)
  rw [Sink.holding_empty] at hsame hstopped
  refine ⟨fun hle => ?_, fun hlt => hstopped (Nat.not_le_of_lt hlt)⟩
  -- all of the text went in
  have hfull : full.take size = full := Array.extract_eq_self_of_le hle
  have hsame := hsame hle
  rw [Sink.holding, hfull] at hsame
  exact hsame

end ChipAtlas
