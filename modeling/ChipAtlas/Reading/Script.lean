import ChipAtlas.Reading.Basic
import ChipAtlas.Text.Numeral

/-!
# Scripts: what is asked of a file

The form of a chip database is written as scripts. A script is a tree of requests — the next line, a
look at the next line, the start of a section — whose branches depend on the answers, and it ends
with a result or with a refusal. `Script.run` carries a script out on a reading.

Because scripts are data, what holds for every request holds for every script: which lines a reading
consumes, what it dumps and where it fails are settled by one induction over `Script`, whatever the
sections of the form look like.

* `Script.run_bind` — running two scripts one after the other;
* `Script.foldTimes`, `Script.forEach` — the counted loops of the form;
* `Script.field`, `Script.count`, `Script.expectTag`, … — the checks on a record.
-/

namespace ChipAtlas

/-- What is asked of a file, request by request. -/
inductive Script (α : Type) : Type where
  /-- The result. -/
  | done (a : α)
  /-- The file violates the form. -/
  | refuse (cause : Cause)
  /-- A look-up went past its table. -/
  | breach (index : OutOfRange)
  /-- The next line, with the selected fields deciphered. -/
  | line (selection : Selection) (next : Record → Script α)
  /-- Whether the next line is blank. -/
  | peekBlank (next : Bool → Script α)
  /-- The lines up to the first that passes a test. -/
  | scan (stop : Record → Bool) (next : List Record → Script α)
  /-- A section begins. -/
  | enter (part : Section) (next : Script α)
  /-- A record of the section begins. -/
  | setRecord (record : Nat) (next : Script α)
  /-- The key is known. -/
  | setKey (key : String) (next : Script α)
  /-- An event. -/
  | note (event : Event) (next : Script α)
  /-- An event that tells how many lines have been asked for. -/
  | noteLines (event : Nat → Event) (next : Script α)

namespace Script

variable {α β σ : Type}

/-! ### Scripts one after the other -/

/-- Goes on with what a function makes of the result. -/
def bind : Script α → (α → Script β) → Script β
  | done a, f => f a
  | refuse cause, _ => refuse cause
  | breach index, _ => breach index
  | line selection next, f => line selection fun fields => (next fields).bind f
  | peekBlank next, f => peekBlank fun blank => (next blank).bind f
  | scan stop next, f => scan stop fun records => (next records).bind f
  | enter part next, f => enter part (next.bind f)
  | setRecord record next, f => setRecord record (next.bind f)
  | setKey key next, f => setKey key (next.bind f)
  | note event next, f => note event (next.bind f)
  | noteLines event next, f => noteLines event (next.bind f)

instance : Monad Script where
  pure := done
  bind := bind

/-- Carries a script out. -/
def run : Script α → Read α
  | done a => pure a
  | refuse cause => Reading.refuse cause
  | breach index => throw (.breach index)
  | line selection next => do run (next (← Reading.line selection))
  | peekBlank next => do run (next (← Reading.peekBlank))
  | scan stop next => do run (next (← Reading.scan stop))
  | enter part next => do Reading.enter part; run next
  | setRecord record next => do Reading.setRecord record; run next
  | setKey key next => do Reading.setKey key; run next
  | note event next => do Reading.note event; run next
  | noteLines event next => do Reading.note (event (← get).place.line); run next

@[simp] theorem run_pure (a : α) : (pure a : Script α).run = pure a := rfl

/-- **Sequencing.** A script that goes on with another runs as the two do, one after the other. -/
theorem run_bind (m : Script α) (f : α → Script β) :
    (m >>= f).run = m.run >>= fun a => (f a).run := by
  change (m.bind f).run = _
  induction m with
  | done a => rfl
  | refuse cause => rfl
  | breach index => rfl
  | line selection next ih => simp only [bind, run, ih, bind_assoc]
  | peekBlank next ih => simp only [bind, run, ih, bind_assoc]
  | scan stop next ih => simp only [bind, run, ih, bind_assoc]
  | enter part next ih => simp only [bind, run, ih, bind_assoc]
  | setRecord record next ih => simp only [bind, run, ih, bind_assoc]
  | setKey key next ih => simp only [bind, run, ih, bind_assoc]
  | note event next ih => simp only [bind, run, ih, bind_assoc]
  | noteLines event next ih => simp only [bind, run, ih, bind_assoc]

/-! ### Lines -/

/-- The next line, with the fields at the listed positions deciphered. -/
def fields (indices : List Nat) : Script Record := line (.only indices) done

/-- The next line, with the fields at all but the listed positions deciphered. -/
def fieldsBut (indices : List Nat) : Script Record := line (.allBut indices) done

/-- The next line, which has to be blank. -/
def blankLine : Script Unit := do
  let record ← fields []
  if record.isEmpty then pure () else refuse (.notEmpty record.length)

/-! ### Counted loops -/

/-- Carries a state through a number of rounds, the first of which has the given index. -/
def rounds (f : Nat → σ → Script σ) : Nat → Nat → σ → Script σ
  | 0, _, s => pure s
  | n + 1, i, s => do rounds f n (i + 1) (← f i s)

/-- Carries a state through rounds numbered from zero. -/
def foldTimes (n : Nat) (f : Nat → σ → Script σ) (s : σ) : Script σ := rounds f n 0 s

/-- The results of rounds numbered from zero, in order. -/
def forEach (n : Nat) (f : Nat → Script α) : Script (List α) :=
  List.reverse <$> foldTimes n (fun i results => return (← f i) :: results) []

/-- The results of a number of rounds that are all alike, in order. -/
def times (n : Nat) (m : Script α) : Script (List α) := forEach n fun _ => m

/-- The results of one round for each entry of a list, in order. -/
def forEntries (entries : List β) (f : Nat → β → Script α) : Script (List α) :=
  go entries 0 []
where
  /-- The rounds for the entries that are left. -/
  go : List β → Nat → List α → Script (List α)
    | [], _, results => return results.reverse
    | b :: rest, i, results => do go rest (i + 1) ((← f i b) :: results)

/-! ### Checks on a record -/

/-- A field that has to be there. -/
def field (fields : Record) (index : Nat) : Script String :=
  match fields[index]? with
  | some text => pure text
  | none => refuse (.missingField index fields.length)

/-- A field that is known to be there. -/
def fieldAt (fields : Record) (index : Nat) : Script String :=
  match fields[index]? with
  | some text => pure text
  | none => breach (.field index)

/-- The result of look-ups that are known to stay inside their tables. -/
def checked : Checked α → Script α
  | .ok a => pure a
  | .error index => breach index

/-- A field that has to be a number, in one of the readings of numerals. -/
def number (read? : String → Option α) (fields : Record) (index : Nat) : Script α := do
  let text ← field fields index
  match read? text with
  | some value => pure value
  | none => refuse (.badNumber index text)

/-- A field that has to be a count. -/
def count : Record → Nat → Script Nat := number Text.count?

/-- The first field has to be a tag. -/
def expectTag (fields : Record) (tag : String) : Script Unit :=
  let found := fields.headD ""
  if found = tag then pure () else refuse (.wrongTag tag found)

/-- A field has to be the number zero. -/
def expectZero (fields : Record) (index : Nat) : Script Unit := do
  if (← number Text.int64? fields index) = 0 then pure ()
  else refuse (.notZero index (← fieldAt fields index))

/-- A record has to have a number of fields. -/
def expectLength (fields : Record) (length : Nat) : Script Unit :=
  if fields.length = length then pure ()
  else refuse (.countMismatch length fields.length)

/-- A field that has to be a flag, 0 or 1. -/
def flag (fields : Record) (index : Nat) (name : String) : Script Bool := do
  let text ← field fields index
  match text with
  | "0" => pure false
  | "1" => pure true
  | _ => refuse (.badFlag name text)

/-! ### Lists behind a count -/

/-- A line with a count, and that many lines with the fields at the listed positions deciphered. -/
def countedLines (indices : List Nat) : Script (List Record) := do
  let n ← count (← fields []) 0
  times n (fields indices)

end Script

end ChipAtlas
