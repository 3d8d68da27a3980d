import ChipAtlas.Reading.Script

/-!
# From the requests to every script

A script is a tree of requests, and what it does is what its requests do, one after the other. A
property of works on a reading therefore holds of every script as soon as it holds of every request
and a sequence of two works inherits it from them (`Reading.Compositional`). Which sections the form
has, and what they ask for, plays no part.

* `Reading.Compositional.scanLines` — the property passes to a search, by induction on the lines
  that bound it;
* `Reading.Compositional.run` — it passes to every script, by induction on the script.
-/

namespace ChipAtlas.Reading

/-- Reports how many lines have been asked for. -/
def noteLines (event : Nat → Event) : Read Unit := do note (event (← get).place.line)

/-- A property of works that every request has and that a sequence inherits from its parts. -/
structure Compositional (P : ∀ {α : Type}, Read α → Prop) : Prop where
  pure {α : Type} (a : α) : P (Pure.pure a : Read α)
  bind {α β : Type} {m : Read α} {f : α → Read β} (hm : P m) (hf : ∀ a, P (f a)) : P (m >>= f)
  refuse {α : Type} (cause : Cause) : P (Reading.refuse cause : Read α)
  breach {α : Type} (index : OutOfRange) : P (throw (.breach index) : Read α)
  line (selection : Selection) : P (Reading.line selection)
  peekBlank : P Reading.peekBlank
  /-- A search is bounded by the unread lines, whatever they are. -/
  scan (stop : Record → Bool) (h : ∀ lines record, P (scanLines stop lines record)) :
    P (Reading.scan stop)
  enter (part : Section) : P (Reading.enter part)
  setRecord (record : Nat) : P (Reading.setRecord record)
  setKey (key : String) : P (Reading.setKey key)
  note (event : Event) : P (Reading.note event)
  noteLines (event : Nat → Event) : P (Reading.noteLines event)

namespace Compositional

variable {P : ∀ {α : Type}, Read α → Prop}

/-- A search that is bounded by some lines takes at most one line more than these. -/
theorem scanLines (h : Compositional @P) (stop : Record → Bool) (lines : List Text.Line)
    (record : Nat) : P (Reading.scanLines stop lines record) := by
  induction lines generalizing record with
  | nil => exact h.bind (h.setRecord record) fun _ => h.bind (h.line _) fun _ => h.pure _
  | cons first rest ih =>
    refine h.bind (h.setRecord record) fun _ => h.bind (h.line _) fun fields => ?_
    split
    · exact h.pure _
    · exact h.bind (ih (record + 1)) fun _ => h.pure _

/-- **Every script.** What holds of the requests and passes to sequences holds of every script. -/
theorem run {α : Type} (h : Compositional @P) (m : Script α) : P m.run := by
  induction m with
  | done a => exact h.pure a
  | refuse cause => exact h.refuse cause
  | breach index => exact h.breach index
  | line selection next ih => exact h.bind (h.line selection) ih
  | peekBlank next ih => exact h.bind h.peekBlank ih
  | scan stop next ih => exact h.bind (h.scan stop (h.scanLines stop)) ih
  | enter part next ih => exact h.bind (h.enter part) fun _ => ih
  | setRecord record next ih => exact h.bind (h.setRecord record) fun _ => ih
  | setKey key next ih => exact h.bind (h.setKey key) fun _ => ih
  | note event next ih => exact h.bind (h.note event) fun _ => ih
  | noteLines event next ih =>
    -- the place is looked up in front of the report, and both together are one request
    have hrun : (Script.noteLines event next).run = Reading.noteLines event >>= fun _ => next.run :=
      (bind_assoc get _ _).symm
    rw [hrun]
    exact h.bind (h.noteLines event) fun _ => ih

end Compositional

end ChipAtlas.Reading
