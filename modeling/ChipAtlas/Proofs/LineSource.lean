import ChipAtlas.Proofs.Script.Local
import ChipAtlas.Proofs.Script.Watched

/-!
# The lines behind a row of operations

A reading is used by operations one after the other, and one that fails does not keep the next one
from being carried out. Whatever they are and whatever becomes of them, they get the lines of the
file in order: none is left out, none comes twice, and the line counter is the number of lines that
have been asked for, those behind the end among them.

A look at the next line is an operation like the others, and it leaves no trace if this line is
readable or missing. What it tells is what taking the line would tell.

* `Operation`, `outcomes` — operations one after the other;
* `Sighted` — the invariant, and `sighted_of_mem_watchedOutcomes` — that every operation keeps it;
* `callOutcomes_eq` — looks in between change nothing;
* `line_source` — all that is said here of readings.
-/

namespace ChipAtlas

open Cipher (KeyStream)
open Stateful
open Text (linesOf)

/-! ### Operations -/

/-- An operation on a reading: whatever a script asks for, or a change of the key stream. -/
inductive Operation : Type 1 where
  | ask {α : Type} (m : Script α)
  | setKeyStream (keys : KeyStream)

namespace Operation

/-- What the operation gives if it succeeds. -/
def Answer : Operation → Type
  | @ask α _ => α
  | setKeyStream _ => Unit

/-- The work of the operation. -/
def run : (op : Operation) → Read op.Answer
  | ask m => m.run
  | setKeyStream keys => Reading.setKeyStream keys

/-- The work of the operation with a list of what it sees at its side. -/
def watched : (op : Operation) → Watch op.Answer
  | ask m => m.watched
  | setKeyStream keys => Watch.silently (Reading.setKeyStream keys)

theorem watches (op : Operation) : Watches op.watched op.run := by
  cases op with
  | ask m => exact watches_script m
  | setKeyStream keys =>
    have hkeeps : Keeps (Reading.setKeyStream keys) := fun _ => ⟨rfl, rfl⟩
    exact hkeeps.watches

end Operation

/-- What has come of an operation, with the state that it has left behind. -/
structure Outcome (σ : Type) : Type 1 where
  Answer : Type
  result : EStateM.Result Failure σ Answer

namespace Outcome

/-- The state that the operation has left behind, also by a failure. -/
def state {σ : Type} (o : Outcome σ) : σ := endState o.result

/-- The outcome without the list of what was seen. -/
def forget (o : Outcome Watched) : Outcome Reading := ⟨o.Answer, Watched.forget o.result⟩

theorem state_forget (o : Outcome Watched) : o.forget.state = o.state.reading := by
  obtain ⟨Answer, result⟩ := o
  cases result <;> rfl

end Outcome

/-- The outcomes of operations one after the other. A failure does not end the row. -/
def outcomes : List Operation → Reading → List (Outcome Reading)
  | [], _ => []
  | op :: ops, s => ⟨_, op.run s⟩ :: outcomes ops (endState (op.run s))

/-- The same with a list of what they see at their side. -/
def watchedOutcomes : List Operation → Watched → List (Outcome Watched)
  | [], _ => []
  | op :: ops, w => ⟨_, op.watched w⟩ :: watchedOutcomes ops (endState (op.watched w))

theorem forget_watchedOutcomes (ops : List Operation) (w : Watched) :
    (watchedOutcomes ops w).map Outcome.forget = outcomes ops w.reading := by
  induction ops generalizing w with
  | nil => rfl
  | cons op ops ih =>
    have hforget := op.watches.forget w
    have hstate : (endState (op.watched w)).reading = endState (op.run w.reading) := by
      rw [← hforget]
      exact (Outcome.state_forget ⟨_, op.watched w⟩).symm
    rw [watchedOutcomes, outcomes, List.map_cons, ih, hstate, Outcome.forget, hforget]

/-! ### Lines in order -/

/-- Of some lines, the first have been seen, one after the other and each of them once, and as many
have been counted. The reading goes on with the others. -/
structure Sighted (lines : List Text.Line) (w : Watched) : Prop where
  sights : w.sights = (List.range w.reading.place.line).map (lines[·]?)
  lines : w.reading.lines = lines.drop w.reading.place.line

/-- **One operation** goes on where the reading is. -/
theorem Sighted.of_sees {lines : List Text.Line} {w w' : Watched} (h : Sighted lines w)
    (hsees : Sees w w') : Sighted lines w' := by
  obtain ⟨n, hsights, hline, hlines⟩ := hsees
  refine ⟨?_, ?_⟩
  · rw [hsights, h.sights, hline, h.lines, map_getElem?_range_add]
  · rw [hlines, h.lines, hline, List.drop_drop]

/-- **Every operation of a row** leaves the lines in order. -/
theorem sighted_of_mem_watchedOutcomes {lines : List Text.Line} {ops : List Operation}
    {w : Watched} (h : Sighted lines w) {o : Outcome Watched} (ho : o ∈ watchedOutcomes ops w) :
    Sighted lines o.state := by
  induction ops generalizing w with
  | nil => exact absurd ho List.not_mem_nil
  | cons op ops ih =>
    have hnext := h.of_sees (op.watches.sees w)
    rcases List.mem_cons.1 ho with rfl | ho
    · exact hnext
    · exact ih hnext ho

/-! ### Looks in between -/

/-- A row of operations with looks at the next line in between. -/
inductive Step : Type 1 where
  | look
  | call (op : Operation)

/-- The operations without the looks. -/
def calls : List Step → List Operation
  | [] => []
  | .look :: steps => calls steps
  | .call op :: steps => op :: calls steps

/-- The outcomes of the operations, with the looks in between carried out. -/
def callOutcomes : List Step → Reading → List (Outcome Reading)
  | [], _ => []
  | .look :: steps, s => callOutcomes steps (endState (Reading.peekBlank s))
  | .call op :: steps, s => ⟨_, op.run s⟩ :: callOutcomes steps (endState (op.run s))

/-- Whenever there is a look, the next line is readable or missing. -/
def LooksSafe : List Step → Reading → Prop
  | [], _ => True
  | .look :: steps, s =>
    s.lines.head? ≠ some .unreadable ∧ LooksSafe steps (endState (Reading.peekBlank s))
  | .call op :: steps, s => LooksSafe steps (endState (op.run s))

instance decidableLooksSafe : (steps : List Step) → (s : Reading) → Decidable (LooksSafe steps s)
  | [], _ => isTrue trivial
  | .look :: steps, s =>
    have := decidableLooksSafe steps (endState (Reading.peekBlank s))
    inferInstanceAs (Decidable (_ ∧ _))
  | .call op :: steps, s => decidableLooksSafe steps (endState (op.run s))

/-- A look at a line that is readable or missing leaves no trace. -/
theorem endState_peekBlank {s : Reading} (h : s.lines.head? ≠ some .unreadable) :
    endState (Reading.peekBlank s) = s := by
  cases hlines : s.lines with
  | nil =>
    rw [Reading.peekBlank_nil hlines]
    rfl
  | cons first rest =>
    cases first with
    | unreadable => exact absurd (congrArg List.head? hlines) h
    | text raw =>
      rw [Reading.peekBlank_text hlines]
      rfl

/-- **Looks in between change nothing.** -/
theorem callOutcomes_eq {steps : List Step} {s : Reading} (h : LooksSafe steps s) :
    callOutcomes steps s = outcomes (calls steps) s := by
  induction steps generalizing s with
  | nil => rfl
  | cons step steps ih =>
    cases step with
    | look =>
      obtain ⟨hnext, hsteps⟩ := h
      rw [endState_peekBlank hnext] at hsteps
      rw [callOutcomes, calls, endState_peekBlank hnext, ih hsteps]
    | call op => rw [callOutcomes, calls, outcomes, ih h]

/-- A look says that the next line is blank exactly if it can be taken as a blank line, into a dump
that has room for it. -/
theorem exists_blankLine_iff {s : Reading} :
    (∃ s', Script.blankLine.run s = .ok () s') ↔
      Reading.peekBlank s = .ok true s ∧ HasRoom s.dump [[]] := by
  simp only [Reading.blankLine_eq_ok, Reading.line_eq_ok, ← emitTo_complete_iff]
  refine ⟨?_, ?_⟩
  · rintro ⟨s', raw, rest, keys, hlines, hd, hcomplete, -⟩
    have hempty : Text.wordsOf raw = [] :=
      List.length_eq_zero_iff.1 (Reading.length_of_decipherFields hd).symm
    rw [Reading.peekBlank_text hlines, Text.isBlankLine_eq, hempty]
    exact ⟨rfl, hcomplete⟩
  · rintro ⟨hpeek, hcomplete⟩
    cases hlines : s.lines with
    | nil =>
      rw [Reading.peekBlank_nil hlines] at hpeek
      exact absurd hpeek error_ne_ok
    | cons first rest =>
      cases first with
      | unreadable =>
        rw [Reading.peekBlank_unreadable hlines] at hpeek
        exact absurd hpeek error_ne_ok
      | text raw =>
        rw [Reading.peekBlank_text hlines, Text.isBlankLine_eq] at hpeek
        obtain ⟨hblank, -⟩ := EStateM.Result.ok.inj hpeek
        refine ⟨_, raw, rest, s.keys, rfl, ?_, hcomplete, rfl⟩
        rw [Reading.deciphered, List.isEmpty_iff.1 hblank]
        rfl

/-- A look fails for the form only behind the last line, where every request for a line fails in the
same way. -/
theorem eq_of_peekBlank_eq_violation {s s' : Reading} {v : Violation}
    (h : Reading.peekBlank s = .error (.violation v) s') :
    s.lines = [] ∧ v = ⟨.unexpectedEnd, s.nextPlace⟩ ∧ s' = s := by
  cases hlines : s.lines with
  | nil =>
    rw [Reading.peekBlank_nil hlines] at h
    obtain ⟨hv, rfl⟩ := EStateM.Result.error.inj h
    exact ⟨rfl, (Failure.violation.inj hv).symm, rfl⟩
  | cons first rest =>
    cases first with
    | unreadable =>
      rw [Reading.peekBlank_unreadable hlines] at h
      exact absurd (EStateM.Result.error.inj h).1 nofun
    | text raw =>
      rw [Reading.peekBlank_text hlines] at h
      exact absurd h ok_ne_error

/-! ### All together -/

/-- **The lines of a file behind a row of operations.** Operations on the reading of a file, whether
they succeed or fail, see its lines one after the other, and the line counter says how many they
have asked for. Looks at the next line in between change nothing, as long as this line is readable
or missing. A look says that the next line is blank exactly if it can be taken as a blank line, and
behind the last line it fails as any request for a line does. -/
theorem line_source :
    (∀ (bytes : List UInt8) (dump : Option Dump) (ops : List Operation),
      (watchedOutcomes ops ⟨.ofBytes bytes dump, []⟩).map Outcome.forget =
        outcomes ops (.ofBytes bytes dump) ∧
      ∀ o ∈ watchedOutcomes ops ⟨.ofBytes bytes dump, []⟩,
        o.state.sights = (List.range o.state.reading.place.line).map ((linesOf bytes)[·]?) ∧
        o.state.reading.lines = (linesOf bytes).drop o.state.reading.place.line) ∧
    (∀ s : Reading, s.lines.head? ≠ some .unreadable → endState (Reading.peekBlank s) = s) ∧
    (∀ (steps : List Step) (s : Reading), LooksSafe steps s →
      callOutcomes steps s = outcomes (calls steps) s) ∧
    (∀ s : Reading, (∃ s', Script.blankLine.run s = .ok () s') ↔
      Reading.peekBlank s = .ok true s ∧ HasRoom s.dump [[]]) ∧
    ∀ (s s' : Reading) (v : Violation), Reading.peekBlank s = .error (.violation v) s' →
      v = ⟨.unexpectedEnd, s.nextPlace⟩ ∧ s' = s ∧
      ∀ {α : Type} (m : Script α), m.TakesLine → m.run s = .error (.violation v) (s.taken []) := by
  refine ⟨fun bytes dump ops => ⟨forget_watchedOutcomes ops _, fun o ho => ?_⟩,
    fun s h => endState_peekBlank h, fun steps s h => callOutcomes_eq h,
    fun s => exists_blankLine_iff, fun s s' v h => ?_⟩
  · have hstart : Sighted (linesOf bytes) ⟨.ofBytes bytes dump, []⟩ := ⟨rfl, rfl⟩
    obtain ⟨hsights, hlines⟩ := sighted_of_mem_watchedOutcomes hstart ho
    exact ⟨hsights, hlines⟩
  · obtain ⟨hlines, rfl, rfl⟩ := eq_of_peekBlank_eq_violation h
    exact ⟨rfl, rfl, fun m hm => Reading.run_nil_of_takesLine hm hlines⟩

/-- A blank line, a line that cannot be read, and a record that is no count. -/
def mixedLines : Reading := { lines := [.text " ", .unreadable, .text "a b"] }

/-- Operations that take these lines, and one line more, with looks in between. A look takes the
second line, which is therefore one of the operations. -/
def mixedSteps : List Step := [
  .look, .call (.ask Script.blankLine), .call (.ask (.peekBlank .done)), .look, .look,
  .call (.ask (Script.countedLines [0])), .look, .call (.ask (Script.fields []))]

theorem line_source_mixedLines :
    mixedLines.lines.head? ≠ some .unreadable ∧
    endState (Reading.peekBlank mixedLines) = mixedLines ∧
    LooksSafe mixedSteps mixedLines ∧
    callOutcomes mixedSteps mixedLines = outcomes (calls mixedSteps) mixedLines ∧
    (outcomes (calls mixedSteps) mixedLines).map (·.state.place.line) = [1, 2, 3, 4] ∧
    (∃ s', Script.blankLine.run mixedLines = .ok () s') ∧
    ∃ v s', Reading.peekBlank { mixedLines with lines := [] } = .error (.violation v) s' ∧
      (Script.countedLines [0]).run { mixedLines with lines := [] } =
        .error (.violation v) (mixedLines.taken []) := by
  obtain ⟨-, hlook, hlooks, hblank, hend⟩ := line_source
  have hfirst : mixedLines.lines.head? ≠ some .unreadable := by decide
  have hsafe : LooksSafe mixedSteps mixedLines := by decide +kernel
  have hpeek : Reading.peekBlank mixedLines = .ok true mixedLines ∧
      HasRoom mixedLines.dump [[]] := by decide +kernel
  obtain ⟨-, -, hline⟩ := hend { mixedLines with lines := [] } _ _ (Reading.peekBlank_nil rfl)
  exact ⟨hfirst, hlook _ hfirst, hsafe, hlooks _ _ hsafe, by decide +kernel, (hblank _).2 hpeek,
    _, _, Reading.peekBlank_nil rfl, hline _ trivial⟩

end ChipAtlas
