import ChipAtlas.Proofs.Reading.Line
import ChipAtlas.Proofs.Script.Works

/-!
# How far a script gets

A reading is never set back, and its line counter says how far it is: the lines that are gone are
the next ones, and each of them has been counted. The one exception is the end of the file. A line
that is asked for behind the last counts as well, and then the work has failed. So a script takes
at most the lines that are left, however it ends.

* `Reading.Advances` — the lines that are gone when a work ends;
* `Reading.Advances.bind` — two works one after the other;
* `Reading.advances_run` — every script.
-/

namespace ChipAtlas.Reading

open Stateful

variable {α β : Type} {m : Read α} {f : α → Read β} {s : Reading}

/-- The lines that are gone when a work ends: the next ones, counted one by one. A work that fails
may have asked for one line more than there are. -/
def Advances (s : Reading) (r : EStateM.Result Failure Reading α) : Prop :=
  ∃ taken, s.lines = taken ++ (endState r).lines ∧
    match r with
    | .ok _ s' => s'.place.line = s.place.line + taken.length
    | .error _ s' => s'.place.line = s.place.line + taken.length ∨
        s'.lines = [] ∧ s'.place.line = s.place.line + taken.length + 1

/-- Nothing is taken. -/
theorem advances_of_silent {r : EStateM.Result Failure Reading α}
    (hlines : (endState r).lines = s.lines) (hline : (endState r).place.line = s.place.line) :
    Advances s r := by
  refine ⟨[], hlines.symm, ?_⟩
  cases r with
  | ok a s' => exact hline
  | error e s' => exact .inl hline

/-- The second of two works takes lines behind those of the first. -/
theorem Advances.bind (hm : Advances s (m s)) (hf : ∀ a s', Advances s' (f a s')) :
    Advances s ((m >>= f) s) := by
  cases hms : m s with
  | error e s₁ =>
    rw [bind_of_error hms]
    rw [hms] at hm
    exact hm
  | ok a s₁ =>
    rw [bind_of_ok hms]
    rw [hms] at hm
    obtain ⟨taken, hlines, hline⟩ := hm
    obtain ⟨taken', hlines', hline'⟩ := hf a s₁
    refine ⟨taken ++ taken', ?_, ?_⟩
    · rw [List.append_assoc, ← hlines']
      exact hlines
    · rw [List.length_append]
      split at hline'
      · omega
      · exact hline'.imp (by omega) fun ⟨hnil, hend⟩ => ⟨hnil, by omega⟩

theorem advances_line (selection : Selection) (s : Reading) :
    Advances s (line selection s) := by
  cases hlines : s.lines with
  | nil =>
    rw [line_nil hlines]
    exact ⟨[], hlines, .inr ⟨rfl, rfl⟩⟩
  | cons first rest =>
    cases first with
    | unreadable =>
      rw [line_unreadable hlines]
      exact ⟨[.unreadable], hlines, .inl rfl⟩
    | text raw =>
      rw [line_text hlines]
      cases deciphered selection raw s.keys with
      | error cause keys => exact ⟨[.text raw], hlines, .inl rfl⟩
      | ok fields keys =>
        dsimp only
        split
        · exact ⟨[.text raw], hlines, rfl⟩
        · exact ⟨[.text raw], hlines, .inl rfl⟩

theorem advances_peekBlank (s : Reading) : Advances s (peekBlank s) := by
  cases hlines : s.lines with
  | nil =>
    rw [peekBlank_nil hlines]
    exact advances_of_silent rfl rfl
  | cons first rest =>
    cases first with
    | unreadable =>
      rw [peekBlank_unreadable hlines]
      exact ⟨[.unreadable], hlines, .inl rfl⟩
    | text raw =>
      rw [peekBlank_text hlines]
      exact advances_of_silent rfl rfl

theorem advances_setKey (key : String) (s : Reading) : Advances s (setKey key s) := by
  rw [setKey]
  split
  · exact advances_of_silent rfl rfl
  · exact advances_of_silent rfl rfl

theorem compositional_advances : Compositional fun m => ∀ s, Advances s (m s) where
  pure _ _ := advances_of_silent rfl rfl
  bind hm hf s := (hm s).bind hf
  refuse _ _ := advances_of_silent rfl rfl
  breach _ _ := advances_of_silent rfl rfl
  line := advances_line
  peekBlank := advances_peekBlank
  scan _ h s := h s.lines 0 s
  enter _ _ := advances_of_silent rfl rfl
  setRecord _ _ := advances_of_silent rfl rfl
  setKey := advances_setKey
  note _ _ := advances_of_silent rfl rfl
  noteLines _ _ := advances_of_silent rfl rfl

/-- **Every script** gets as far as it counts. -/
theorem advances_run {α : Type} (m : Script α) (s : Reading) : Advances s (m.run s) :=
  compositional_advances.run m s

end ChipAtlas.Reading
