import ChipAtlas.Proofs.RoundTrip
import ChipAtlas.Proofs.Script.Attentive
import ChipAtlas.Proofs.Script.Local

/-!
# A file is decoded by the lines that are taken from it

Decoding a file comes to an end after some of its lines, and these lines decide the outcome:
whatever stands behind them is never looked at, and without the last of them the file is found to
end too early. So no accepted file goes on where another accepted file has been read to its end.

* `DecidedBy` — the first lines of a file, and no fewer, decide its outcome;
* `decidedBy_linesTaken` — for every file that does not end too early, the lines taken do.
-/

namespace ChipAtlas

open Stateful
open Text (linesOf firstLines)

/-- The number of lines that have been asked for when decoding ends. -/
def linesTaken (bytes : List UInt8) (dump : Option Dump) : Nat :=
  (endState (decode bytes dump)).place.line

/-- **The first lines of a file decide its outcome, and no fewer do.** They are the lines that are
gone when decoding ends. A file with the same first lines has the same outcome, up to the lines that
are left; a file that ends before the last of them ends too early, at the line behind its last, and
the dump has the lines that were there. -/
structure DecidedBy (bytes : List UInt8) (dump : Option Dump) (n : Nat) : Prop where
  le_length : n ≤ (linesOf bytes).length
  lines_eq : (endState (decode bytes dump)).lines = (linesOf bytes).drop n
  behind : ∀ bytes', (linesOf bytes').take n = (linesOf bytes).take n →
    decode bytes' dump = mapState (·.withLines ((linesOf bytes').drop n)) (decode bytes dump)
  cut : ∀ k < n, ∀ bytes', linesOf bytes' = (linesOf bytes).take k → ∃ place s,
    decode bytes' dump = .error (.violation ⟨.unexpectedEnd, place⟩) s ∧ place.line = k + 1 ∧
      s.dump = (endState (decode bytes dump)).dump.map (·.firstLines k)

variable {bytes bytes' : List UInt8} {dump : Option Dump}

theorem decidedBy_of_consumes {used : List Text.Line} {records : List Record}
    (h : Reading.Consumes Database.script.run (.ofBytes bytes dump) used records)
    (hcut : ∀ k < used.length, ∀ d, Dumps dump (records.take k) d →
      d = (endState (decode bytes dump)).dump.map (·.firstLines k)) :
    DecidedBy bytes dump (linesTaken bytes dump) := by
  have hlines : linesOf bytes = used ++ (endState (decode bytes dump)).lines := h.lines_eq
  have hcount : linesTaken bytes dump = used.length := by
    rw [linesTaken]
    exact h.line_eq.trans (Nat.zero_add _)
  rw [hcount]
  refine ⟨?_, ?_, fun bytes' hbytes' => ?_, fun k hk bytes' hbytes' => ?_⟩
  · rw [hlines, List.length_append]
    exact Nat.le_add_right _ _
  · rw [hlines, List.drop_left]
  -- with the same first lines, the other file is these lines and others behind them
  · rw [hlines, List.take_left] at hbytes'
    have hused : used ++ (linesOf bytes').drop used.length = linesOf bytes' := by
      calc used ++ (linesOf bytes').drop used.length
          = (linesOf bytes').take used.length ++ (linesOf bytes').drop used.length := by
            rw [hbytes']
        _ = linesOf bytes' := List.take_append_drop _ _
    have hbehind := h.behind ((linesOf bytes').drop used.length)
    rw [hused] at hbehind
    exact hbehind
  -- the cut file has the first of the lines that are consumed, and no others
  · rw [hlines, List.take_append_of_le_length (Nat.le_of_lt hk)] at hbytes'
    obtain ⟨place, s, hs, hplace, hdumps⟩ := h.cut k hk
    rw [← hbytes'] at hs
    refine ⟨place, s, hs, ?_, hcut k hk s.dump hdumps⟩
    rw [hplace]
    exact congrArg (· + 1) (Nat.zero_add k)

/-- Unless a file ends too early, the lines taken from it decide its outcome. -/
theorem decidedBy_of_not_runsOut (hempty : ∀ d ∈ dump, d.bytes = #[])
    (hrun : ∀ e s, decode bytes dump = .error e s → ¬e.RunsOut) :
    DecidedBy bytes dump (linesTaken bytes dump) := by
  have hlocal := Reading.localAt_run Database.attentive_script (.ofBytes bytes dump)
  -- a failure may leave a part of the last record in the dump
  cases hdecode : decode bytes dump with
  | ok db s =>
    obtain ⟨used, records, hused, hlen, hdumps⟩ := hlocal.ok hdecode
    refine decidedBy_of_consumes hused fun k hk d hd => ?_
    rw [hdecode]
    exact hdumps.eq_firstLines hempty (.inl rfl) (hlen ▸ Nat.le_of_lt hk) hd
  | error e s =>
    obtain ⟨used, records, hused, hlen, d', hdumps, hfinal⟩ :=
      hlocal.error hdecode (hrun e s hdecode)
    refine decidedBy_of_consumes hused fun k hk d hd => ?_
    rw [hdecode]
    exact hdumps.eq_firstLines hempty hfinal (by omega) hd

/-- What an accepted file needs does not go on where another accepted file has been read to its end:
cut there, the one ends too early and the other is still accepted. -/
theorem DecidedBy.linesTaken_eq {db' : Database} {s' : Reading} {n n' : Nat}
    (h : DecidedBy bytes dump n) (h' : DecidedBy bytes' dump n')
    (hs' : decode bytes' dump = .ok db' s')
    (hle : (linesOf bytes').take n' <+: (linesOf bytes).take n) :
    (linesOf bytes').take n' = (linesOf bytes).take n := by
  have hlength := hle.length_le
  rw [List.length_take_of_le h.le_length, List.length_take_of_le h'.le_length] at hlength
  have htake : (linesOf bytes').take n' = (linesOf bytes).take n' := by
    rw [List.prefix_iff_eq_take.1 hle, List.length_take_of_le h'.le_length, List.take_take,
      Nat.min_eq_left hlength]
  -- the other file, cut behind its lines, is still accepted; but it is this one, cut too early
  rcases Nat.lt_or_eq_of_le hlength with hlt | rfl
  · have hcut : linesOf (firstLines n' bytes') = (linesOf bytes').take n' :=
      Text.linesOf_firstLines n' bytes'
    obtain ⟨place, s, hs, -⟩ := h.cut n' hlt _ (hcut.trans htake)
    have hbehind := h'.behind (firstLines n' bytes') (by rw [hcut, List.take_take, Nat.min_self])
    rw [hs, hs'] at hbehind
    exact absurd hbehind error_ne_ok
  · exact htake

/-- **A file is decided by the lines that are taken from it**, unless it ends too early: on success
and on every other failure. In particular, if what one accepted file needs begins with all that
another one needs, then the two need the same lines. -/
theorem decidedBy_linesTaken (bytes : List UInt8) (dump : Option Dump)
    (hempty : ∀ d ∈ dump, d.bytes = #[])
    (hrun : ∀ e s, decode bytes dump = .error e s → ¬e.RunsOut) :
    DecidedBy bytes dump (linesTaken bytes dump) ∧
      ∀ bytes' db db' s s', decode bytes dump = .ok db s → decode bytes' dump = .ok db' s' →
        (linesOf bytes').take (linesTaken bytes' dump) <+:
          (linesOf bytes).take (linesTaken bytes dump) →
        (linesOf bytes').take (linesTaken bytes' dump) =
          (linesOf bytes).take (linesTaken bytes dump) := by
  have hdecided := decidedBy_of_not_runsOut hempty hrun
  refine ⟨hdecided, fun bytes' db db' s s' _ hs' hle => ?_⟩
  have hdecided' : DecidedBy bytes' dump (linesTaken bytes' dump) :=
    decidedBy_of_not_runsOut hempty fun e t ht => absurd (ht.symm.trans hs') error_ne_ok
  exact hdecided.linesTaken_eq hdecided' hs' hle

/-- The text of the small file. -/
def smallText : List UInt8 := Text.utf8 (endState (perform FileText.smallFile.calls {})).text

/-- The small file is accepted. -/
theorem exists_decode_smallText : ∃ db s, decode smallText (some {}) = .ok db s := by
  obtain ⟨trace, w, grid, s, hperform, hdecode⟩ :=
    FileText.exists_decode_smallFile (some {}) fun d hd => by cases hd; rfl
  have htext : smallText = Text.utf8 w.text := by rw [smallText, hperform]; rfl
  exact ⟨_, s, htext ▸ hdecode⟩

theorem decidedBy_linesTaken_smallText :
    (∃ db s, decode smallText (some {}) = .ok db s) ∧
      DecidedBy smallText (some {}) (linesTaken smallText (some {})) := by
  obtain ⟨db, s, hdecode⟩ := exists_decode_smallText
  have hempty : ∀ d ∈ (some {} : Option Dump), d.bytes = #[] := by simp
  -- an accepted file does not run out of lines
  have hrun : ∀ e t, decode smallText (some {}) = .error e t → ¬e.RunsOut :=
    fun e t ht => absurd (ht.symm.trans hdecode) error_ne_ok
  exact ⟨⟨db, s, hdecode⟩, (decidedBy_linesTaken smallText (some {}) hempty hrun).1⟩

end ChipAtlas
