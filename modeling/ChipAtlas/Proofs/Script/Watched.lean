import ChipAtlas.Proofs.Reading.Line
import ChipAtlas.Proofs.Script.Works

/-!
# Which lines a script sees

A reading does not remember the lines that it has taken. To say which they were, a script is carried
out with a list at its side, into which every request for a line enters what it has got: a text, a
line that cannot be read, or the end of the file. The entry is made from the outcome of the request,
not from the lines of the reading, and the list is never looked at. So carrying out a script in this
way is carrying it out, and the list says what it saw.

The list and the line counter move together: behind every work, the new entries are the lines that
were next, one after the other, and as many have been counted (`Sees`).

* `Script.watched` — a script with the list at its side;
* `Watches.bind`, `watches_takeLine` — one work after another, and one line;
* `watches_script` — every script.
-/

namespace ChipAtlas

open Stateful

/-- A reading with what its requests for a line have got, in order. -/
structure Watched where
  reading : Reading
  sights : List (Option Text.Line) := []

/-- Work on a reading with a list at its side. -/
abbrev Watch := EStateM Failure Watched

/-- The outcome without the list. -/
def Watched.forget {α : Type} :
    EStateM.Result Failure Watched α → EStateM.Result Failure Reading α
  | .ok a w => .ok a w.reading
  | .error e w => .error e w.reading

namespace Watch

variable {α : Type}

/-- Work that asks for no line. -/
def silently (m : Read α) : Watch α := fun w =>
  match m w.reading with
  | .ok a s => .ok a { w with reading := s }
  | .error e s => .error e { w with reading := s }

/-- What a request for a line has got. -/
def sightOf : EStateM.Result Failure Reading String → Option Text.Line
  | .ok text _ => some (.text text)
  | .error (.io _) _ => some .unreadable
  | .error (.violation _) _ | .error (.breach _) _ => none

/-- Takes the next line, and enters what this gives. -/
def takeLine : Watch String := fun w =>
  let sights := w.sights ++ [sightOf (Reading.takeLine w.reading)]
  match Reading.takeLine w.reading with
  | .ok text s => .ok text ⟨s, sights⟩
  | .error e s => .error e ⟨s, sights⟩

/-- Takes the next line as a record. -/
def line (selection : Selection) : Watch Record := do
  let fields := Text.wordsOf (← takeLine)
  let fields ← silently (Reading.decipherAt (selection.indices fields.length) fields)
  silently (Reading.emit fields)
  return fields

/-- Whether the next line is blank. An unreadable line is taken. -/
def peekBlank : Watch Bool := fun w =>
  match w.reading.lines with
  | .unreadable :: _ => (takeLine *> pure false) w
  | _ => silently Reading.peekBlank w

/-- Takes lines as records up to the first that passes the test. -/
def scanLines (stop : Record → Bool) : List Text.Line → Nat → Watch (List Record)
  | [], record => do
    silently (Reading.setRecord record)
    return [← line (.only [0])]
  | _ :: unread, record => do
    silently (Reading.setRecord record)
    let fields ← line (.only [0])
    if stop fields then return [fields]
    else return fields :: (← scanLines stop unread (record + 1))

/-- Takes lines up to the first that passes the test. -/
def scan (stop : Record → Bool) : Watch (List Record) := fun w =>
  scanLines stop w.reading.lines 0 w

end Watch

/-- Carries a script out with a list at its side. -/
def Script.watched {α : Type} : Script α → Watch α
  | done a => pure a
  | refuse cause => Watch.silently (Reading.refuse cause)
  | breach index => Watch.silently (throw (.breach index))
  | line selection next => do watched (next (← Watch.line selection))
  | peekBlank next => do watched (next (← Watch.peekBlank))
  | scan stop next => do watched (next (← Watch.scan stop))
  | enter part next => do Watch.silently (Reading.enter part); watched next
  | setRecord record next => do Watch.silently (Reading.setRecord record); watched next
  | setKey key next => do Watch.silently (Reading.setKey key); watched next
  | note event next => do Watch.silently (Reading.note event); watched next
  | noteLines event next => do Watch.silently (Reading.noteLines event); watched next

/-! ### What is seen -/

/-- The first lines are some lines and then the first of those behind them. -/
theorem map_getElem?_range_add (lines : List Text.Line) (n m : Nat) :
    (List.range (n + m)).map (lines[·]?) =
      (List.range n).map (lines[·]?) ++ (List.range m).map ((lines.drop n)[·]?) := by
  rw [List.range_add, List.map_append, List.map_map]
  simp only [List.getElem?_drop]
  rfl

/-- Between two states, the next lines have been seen, one after the other. Each has been taken and
counted, also where there was none any more. -/
def Sees (w w' : Watched) : Prop :=
  ∃ n, w'.sights = w.sights ++ (List.range n).map (w.reading.lines[·]?) ∧
    w'.reading.place.line = w.reading.place.line + n ∧
    w'.reading.lines = w.reading.lines.drop n

theorem sees_of_silent {w : Watched} {s : Reading} (hlines : s.lines = w.reading.lines)
    (hline : s.place.line = w.reading.place.line) : Sees w { w with reading := s } :=
  ⟨0, (List.append_nil _).symm, hline, hlines⟩

theorem Sees.trans {w w₁ w₂ : Watched} (h : Sees w w₁) (h' : Sees w₁ w₂) : Sees w w₂ := by
  obtain ⟨n, hsights, hline, hlines⟩ := h
  obtain ⟨m, hsights', hline', hlines'⟩ := h'
  refine ⟨n + m, ?_, by rw [hline', hline, Nat.add_assoc], ?_⟩
  · rw [hsights', hsights, hlines, List.append_assoc, map_getElem?_range_add]
  · rw [hlines', hlines, List.drop_drop]

/-- A watched work does what the work does, and its list says which lines this took. -/
structure Watches {α : Type} (v : Watch α) (m : Read α) : Prop where
  forget : ∀ w, Watched.forget (v w) = m w.reading
  sees : ∀ w, Sees w (endState (v w))

variable {α β : Type}

theorem watches_pure (a : α) : Watches (pure a) (pure a) :=
  ⟨fun _ => rfl, fun _ => sees_of_silent rfl rfl⟩

/-- **One work after another.** -/
theorem Watches.bind {v : Watch α} {m : Read α} {g : α → Watch β} {f : α → Read β}
    (h : Watches v m) (hg : ∀ a, Watches (g a) (f a)) : Watches (v >>= g) (m >>= f) := by
  refine ⟨fun w => ?_, fun w => ?_⟩
  · have hfirst := h.forget w
    cases hv : v w with
    | ok a w₁ =>
      rw [hv] at hfirst
      rw [bind_of_ok hv, bind_of_ok hfirst.symm, (hg a).forget w₁]
    | error e w₁ =>
      rw [hv] at hfirst
      rw [bind_of_error hv, bind_of_error hfirst.symm]
      rfl
  · have hfirst := h.sees w
    cases hv : v w with
    | ok a w₁ =>
      rw [hv] at hfirst
      rw [bind_of_ok hv]
      exact hfirst.trans ((hg a).sees w₁)
    | error e w₁ =>
      rw [hv] at hfirst
      rw [bind_of_error hv]
      exact hfirst

/-- Work that leaves the lines and their number alone. -/
def Keeps (m : Read α) : Prop :=
  ∀ s, (endState (m s)).lines = s.lines ∧ (endState (m s)).place.line = s.place.line

theorem forget_silently (m : Read α) (w : Watched) :
    Watched.forget (Watch.silently m w) = m w.reading := by
  rw [Watch.silently]
  cases m w.reading <;> rfl

theorem Keeps.watches {m : Read α} (h : Keeps m) : Watches (Watch.silently m) m := by
  refine ⟨forget_silently m, fun w => ?_⟩
  have hkept := h w.reading
  rw [Watch.silently]
  cases hm : m w.reading with
  | ok a s =>
    rw [hm] at hkept
    exact sees_of_silent hkept.1 hkept.2
  | error e s =>
    rw [hm] at hkept
    exact sees_of_silent hkept.1 hkept.2

/-! ### Requests -/

theorem keeps_decipherAt (indices : List Nat) (fields : Record) :
    Keeps (Reading.decipherAt indices fields) := by
  intro s
  rw [Reading.decipherAt_eq]
  cases decipherFields indices fields s.keys <;> exact ⟨rfl, rfl⟩

theorem keeps_emit (fields : Record) : Keeps (Reading.emit fields) := by
  intro s
  by_cases hcomplete : (emitTo s.dump fields).2 = true
  · rw [Reading.emit_of_complete hcomplete]
    exact ⟨rfl, rfl⟩
  · rw [Reading.emit_of_incomplete hcomplete]
    exact ⟨rfl, rfl⟩

theorem keeps_setKey (key : String) : Keeps (Reading.setKey key) := by
  intro s
  rw [Reading.setKey]
  split <;> exact ⟨rfl, rfl⟩

/-- **One line.** What the request gets is the next line of the reading, or that there is none. -/
theorem watches_takeLine : Watches Watch.takeLine Reading.takeLine := by
  have htake (s : Reading) : Watch.sightOf (Reading.takeLine s) = s.lines.head? ∧
      endState (Reading.takeLine s) = s.taken s.lines.tail := by
    rw [Reading.takeLine]
    cases s.lines with
    | nil => exact ⟨rfl, rfl⟩
    | cons first rest => cases first <;> exact ⟨rfl, rfl⟩
  refine ⟨fun w => ?_, fun w => ⟨1, ?_⟩⟩
  · rw [Watch.takeLine]
    cases Reading.takeLine w.reading <;> rfl
  · obtain ⟨hsight, hend⟩ := htake w.reading
    rw [Watch.takeLine, hsight, List.range_one, List.map_singleton, ← List.head?_eq_getElem?,
      List.drop_one]
    cases hread : Reading.takeLine w.reading with
    | ok text s =>
      rw [hread] at hend
      obtain rfl : s = _ := hend
      exact ⟨rfl, rfl, rfl⟩
    | error e s =>
      rw [hread] at hend
      obtain rfl : s = _ := hend
      exact ⟨rfl, rfl, rfl⟩

theorem watches_line (selection : Selection) :
    Watches (Watch.line selection) (Reading.line selection) :=
  watches_takeLine.bind fun _ => (keeps_decipherAt _ _).watches.bind fun fields =>
    (keeps_emit fields).watches.bind fun _ => watches_pure fields

/-- A look at the next line sees it only if it is taken for being unreadable. -/
theorem watches_peekBlank : Watches Watch.peekBlank Reading.peekBlank := by
  have hskip : Watches (Watch.takeLine *> pure false) (Reading.takeLine *> pure false) := by
    rw [seqRight_eq_bind, seqRight_eq_bind]
    exact watches_takeLine.bind fun _ => watches_pure false
  refine ⟨fun w => ?_, fun w => ?_⟩
  · rw [Watch.peekBlank]
    split
    next hlines =>
      rw [Reading.peekBlank, hlines]
      exact hskip.forget w
    next => exact forget_silently _ w
  · rw [Watch.peekBlank]
    split
    next => exact hskip.sees w
    next hreadable =>
      rw [Watch.silently]
      cases hlines : w.reading.lines with
      | nil =>
        rw [Reading.peekBlank_nil hlines]
        exact sees_of_silent rfl rfl
      | cons first rest =>
        cases first with
        | unreadable => exact absurd hlines (hreadable rest)
        | text raw =>
          rw [Reading.peekBlank_text hlines]
          exact sees_of_silent rfl rfl

theorem watches_scanLines (stop : Record → Bool) (unread : List Text.Line) (record : Nat) :
    Watches (Watch.scanLines stop unread record) (Reading.scanLines stop unread record) := by
  have hset (record : Nat) : Keeps (Reading.setRecord record) := fun _ => ⟨rfl, rfl⟩
  induction unread generalizing record with
  | nil =>
    exact (hset record).watches.bind fun _ =>
      (watches_line _).bind fun fields => watches_pure [fields]
  | cons first unread ih =>
    refine (hset record).watches.bind fun _ => (watches_line _).bind fun fields => ?_
    split
    · exact watches_pure [fields]
    · exact (ih (record + 1)).bind fun _ => watches_pure _

/-- **Every script.** -/
theorem watches_script (m : Script α) : Watches m.watched m.run := by
  induction m with
  | done a => exact watches_pure a
  | refuse cause => exact Keeps.watches fun _ => ⟨rfl, rfl⟩
  | breach index => exact Keeps.watches fun _ => ⟨rfl, rfl⟩
  | line selection next ih => exact (watches_line selection).bind ih
  | peekBlank next ih => exact watches_peekBlank.bind ih
  | scan stop next ih =>
    have hscan : Watches (Watch.scan stop) (Reading.scan stop) :=
      ⟨fun w => (watches_scanLines stop w.reading.lines 0).forget w,
        fun w => (watches_scanLines stop w.reading.lines 0).sees w⟩
    exact hscan.bind ih
  | enter part next ih => exact (Keeps.watches fun _ => ⟨rfl, rfl⟩).bind fun _ => ih
  | setRecord record next ih => exact (Keeps.watches fun _ => ⟨rfl, rfl⟩).bind fun _ => ih
  | setKey key next ih => exact (keeps_setKey key).watches.bind fun _ => ih
  | note event next ih => exact (Keeps.watches fun _ => ⟨rfl, rfl⟩).bind fun _ => ih
  | noteLines event next ih =>
    -- the place is looked up in front of the report, and both together are one request
    have hrun : (Script.noteLines event next).run = Reading.noteLines event >>= fun _ => next.run :=
      (bind_assoc get _ _).symm
    rw [hrun]
    exact (Keeps.watches fun _ => ⟨rfl, rfl⟩).bind fun _ => ih

end ChipAtlas
