import ChipAtlas.Proofs.Reading.Line
import ChipAtlas.Proofs.Script.Modular

/-!
# Scripts that stay inside their tables

A look-up that goes past its table would be a mistake of the form, and not of a file. That no file
leads to one is said of a script before any file is looked at: whatever the answers to its requests
are, the script never comes to a breach, and every result that it comes to has a property
(`Script.Ensures`). The property is what the next part of the form may rely on.

* `Script.Ensures.bind` — a script relies on what the one before it ensures;
* `Script.ensures_foldTimes` — what every round keeps is ensured of all rounds;
* `Script.safe_modular` — what has no tables to look into never comes to a breach;
* `Script.Ensures.run` — carried out on a file, the script ends with such a result, or with a
  violation or an unreadable file.
-/

namespace ChipAtlas

open Stateful

namespace Script

variable {α β σ : Type} {m : Script α} {f : α → Script β} {post : α → Prop} {post' : β → Prop}

/-- Whatever the answers are, no look-up goes past its table, and every result has a property. -/
def Ensures (post : α → Prop) : Script α → Prop
  | done a => post a
  | refuse _ => True
  | breach _ => False
  | line _ next => ∀ fields, (next fields).Ensures post
  | peekBlank next => ∀ blank, (next blank).Ensures post
  | scan _ next => ∀ records, (next records).Ensures post
  | enter _ next | setRecord _ next | setKey _ next | note _ next | noteLines _ next =>
    next.Ensures post

/-- Whatever the answers are, no look-up goes past its table. -/
def Safe (m : Script α) : Prop := m.Ensures fun _ => True

/-! ### Scripts one after the other -/

/-- **Scripts one after the other.** The second may rely on what the first ensures. -/
theorem Ensures.bind (hm : m.Ensures post) (hf : ∀ a, post a → (f a).Ensures post') :
    (m >>= f).Ensures post' := by
  induction m with
  | done a => exact hf a hm
  | refuse cause => trivial
  | breach index => exact hm.elim
  | line selection next ih => exact fun fields => ih fields (hm fields)
  | peekBlank next ih => exact fun blank => ih blank (hm blank)
  | scan stop next ih => exact fun records => ih records (hm records)
  | enter part next ih => exact ih hm
  | setRecord record next ih => exact ih hm
  | setKey key next ih => exact ih hm
  | note event next ih => exact ih hm
  | noteLines event next ih => exact ih hm

/-- Behind a script of which nothing else is needed. -/
theorem Safe.bind (hm : m.Safe) (hf : ∀ a, (f a).Ensures post') : (m >>= f).Ensures post' :=
  Ensures.bind hm fun a _ => hf a

/-- What has no tables to look into never comes to a breach. -/
theorem safe_modular : Modular @Safe where
  done _ := trivial
  refuse _ := trivial
  bind := Safe.bind
  line _ _ := trivial
  scan _ _ := trivial
  enter _ := trivial
  setRecord _ := trivial
  setKey _ := trivial
  note _ := trivial
  noteLines _ := trivial

/-- Behind a check that has been passed. -/
theorem ensures_check_bind {c : Prop} [Decidable c] {cause : Cause} {f : Unit → Script α}
    (hf : ¬ c → (f ()).Ensures post) : (if c then refuse cause >>= f else f ()).Ensures post := by
  by_cases hc : c
  · rw [if_pos hc]
    trivial
  · rw [if_neg hc]
    exact hf hc

/-- Behind the check of a length, the record has this length. -/
theorem ensures_expectLength (record : Record) (length : Nat) :
    (expectLength record length).Ensures fun _ => record.length = length := by
  by_cases hlength : record.length = length
  · rw [expectLength, if_pos hlength]
    exact hlength
  · rw [expectLength, if_neg hlength]
    trivial

/-- A field that is there can be looked up. -/
theorem safe_fieldAt {record : Record} {index : Nat} (h : index < record.length) :
    (fieldAt record index).Safe := by
  rw [fieldAt_of_lt h]
  trivial

/-- A look-up that stays inside its tables. -/
theorem ensures_checked {value : Checked α} {a : α} (h : value = .ok a) :
    (checked value).Ensures (· = a) := by
  rw [h]
  rfl

/-- **Loops.** What holds at first and is kept by every round holds in the end. -/
theorem ensures_foldTimes {inv : σ → Prop} {f : Nat → σ → Script σ}
    (hf : ∀ i s, inv s → (f i s).Ensures inv) (n : Nat) {s : σ} (hs : inv s) :
    (foldTimes n f s).Ensures inv := by
  suffices hrounds : ∀ i s, inv s → (rounds f n i s).Ensures inv from hrounds 0 s hs
  induction n with
  | zero => exact fun i s hs => hs
  | succ n ih => exact fun i s hs => (hf i s hs).bind fun s hs => ih (i + 1) s hs

end Script

/-! ### Carried out on a file -/

namespace Reading

variable {α β : Type} {post : α → Prop} {post' : β → Prop} {m : Read α} {f : α → Read β}
  {s : Reading}

/-- A work ends with a result that has a property, or with a violation of the form or a failure of
the file, but not with a look-up past a table. -/
inductive EndsWell (post : α → Prop) : EStateM.Result Failure Reading α → Prop where
  | ok {a : α} {s : Reading} (h : post a) : EndsWell post (.ok a s)
  | violation {v : Violation} {s : Reading} : EndsWell post (.error (.violation v) s)
  | io {e : IoError} {s : Reading} : EndsWell post (.error (.io e) s)

theorem EndsWell.bind (hm : EndsWell post (m s))
    (hf : ∀ a s', post a → EndsWell post' (f a s')) : EndsWell post' ((m >>= f) s) := by
  cases hms : m s with
  | ok a s' =>
    rw [hms] at hm
    rw [bind_of_ok hms]
    cases hm with
    | ok ha => exact hf a s' ha
  | error e s' =>
    rw [hms] at hm
    rw [bind_of_error hms]
    cases hm with
    | violation => exact .violation
    | io => exact .io

/-- One line, whatever it is. -/
theorem endsWell_line (selection : Selection) (s : Reading) :
    EndsWell (fun _ => True) (line selection s) := by
  cases hlines : s.lines with
  | nil =>
    rw [line_nil hlines]
    exact .violation
  | cons first rest =>
    cases first with
    | unreadable =>
      rw [line_unreadable hlines]
      exact .io
    | text raw =>
      rw [line_text hlines]
      cases deciphered selection raw s.keys with
      | error cause keys => exact .violation
      | ok fields keys =>
        dsimp only
        split
        · exact .ok trivial
        · exact .io

theorem endsWell_peekBlank (s : Reading) : EndsWell (fun _ => True) (peekBlank s) := by
  cases hlines : s.lines with
  | nil =>
    rw [peekBlank_nil hlines]
    exact .violation
  | cons first rest =>
    cases first with
    | unreadable =>
      rw [peekBlank_unreadable hlines]
      exact .io
    | text raw =>
      rw [peekBlank_text hlines]
      exact .ok trivial

theorem endsWell_scanLines (stop : Record → Bool) (lines : List Text.Line) (record : Nat)
    (s : Reading) : EndsWell (fun _ => True) (scanLines stop lines record s) := by
  have hset (record : Nat) (s : Reading) : EndsWell (fun _ => True) (setRecord record s) :=
    .ok trivial
  induction lines generalizing record s with
  | nil =>
    exact (hset record s).bind fun _ s _ => (endsWell_line _ s).bind fun fields s _ => .ok trivial
  | cons first rest ih =>
    refine (hset record s).bind fun _ s _ => (endsWell_line _ s).bind fun fields s _ => ?_
    split
    · exact .ok trivial
    · exact (ih (record + 1) s).bind fun _ _ _ => .ok trivial

theorem endsWell_scan (stop : Record → Bool) (s : Reading) :
    EndsWell (fun _ => True) (scan stop s) :=
  endsWell_scanLines stop s.lines 0 s

theorem endsWell_setKey (key : String) (s : Reading) :
    EndsWell (fun _ => True) (setKey key s) := by
  rw [setKey]
  split
  · exact .ok trivial
  · exact .violation

end Reading

open Reading in
/-- **Carried out on a file**, a script that ensures a property comes to a result that has it, or to
a violation of the form or a failure of the file. -/
theorem Script.Ensures.run {α : Type} {m : Script α} {post : α → Prop} (h : m.Ensures post)
    (s : Reading) : EndsWell post (m.run s) := by
  induction m generalizing s with
  | done a => exact .ok h
  | refuse cause => exact .violation
  | breach index => exact h.elim
  | line selection next ih =>
    exact (endsWell_line selection s).bind fun fields s _ => ih fields (h fields) s
  | peekBlank next ih =>
    exact (endsWell_peekBlank s).bind fun blank s _ => ih blank (h blank) s
  | scan stop next ih =>
    exact (endsWell_scan stop s).bind fun records s _ => ih records (h records) s
  | enter part next ih => exact ih h _
  | setRecord record next ih => exact ih h _
  | setKey key next ih => exact (endsWell_setKey key s).bind fun _ s _ => ih h s
  | note event next ih => exact ih h _
  | noteLines event next ih => exact ih h _

end ChipAtlas
