import Mathlib.Tactic.MkIffOfInductiveProp
import ChipAtlas.Proofs.Lockstep

/-!
# Scripts on rows of calls

What a script accepts is best said without lines, key streams and dumps: a script walks along a row
of calls, each of which answers one request for a line or announces the key. `Script.walk` is this
walk. It ends with a result and the calls that are left, with a refusal, or stuck before a call that
does not answer the request.

* `Script.walk_bind` — the walk of two scripts one after the other, and the walks of the checks and
  loops that the form is made of, each as an equivalence;
* `Reading.simulates_walk` — a reading that shows the calls carries the script out as the walk does;
* `Reading.exists_walk_of_run` — whatever a script accepts, it accepts by such a walk.
-/

namespace ChipAtlas

open Stateful

/-- How a walk ends without a result. -/
inductive Halt where
  /-- The script refuses the calls. -/
  | refused (cause : Cause)
  /-- The next call is not what the script asks for. -/
  | stuck
  deriving DecidableEq, Repr

/-- A blank line as it is written: a record without fields. -/
def blankCall : Call := .line (.only []) []

/-- Work on a row of calls. -/
abbrev Walk := EStateM Halt (List Call)

namespace Walk

/-- The record of the next call, which has to take a line with the selection. -/
def line (selection : Selection) : Walk Record
  | .line found fields :: calls =>
    if found = selection then .ok fields calls else .error .stuck (.line found fields :: calls)
  | calls => .error .stuck calls

/-- Whether the line of the next call is blank. -/
def peekBlank : Walk Bool
  | .line found fields :: calls => .ok fields.isEmpty (.line found fields :: calls)
  | calls => .error .stuck calls

/-- The records of the calls up to the first that passes the test. -/
def scan (stop : Record → Bool) : Walk (List Record)
  | .line found fields :: calls =>
    if found = .only [0] then
      if stop fields then .ok [fields] calls
      else
        match scan stop calls with
        | .ok records rest => .ok (fields :: records) rest
        | .error halt rest => .error halt rest
    else .error .stuck (.line found fields :: calls)
  | calls => .error .stuck calls

/-- The next call has to announce the key. -/
def setKey (key : String) : Walk Unit
  | .setKey found :: calls =>
    if found = key then .ok () calls else .error .stuck (.setKey found :: calls)
  | calls => .error .stuck calls

theorem line_eq_ok {selection : Selection} {fields : Record} {calls rest : List Call} :
    line selection calls = .ok fields rest ↔ calls = .line selection fields :: rest := by
  unfold line
  split
  · next found record tail =>
    split
    · next heq => subst heq; simp
    · next hne => simp [hne]
  · next h =>
    refine ⟨?_, ?_⟩
    · exact fun heq => absurd heq error_ne_ok
    · exact fun heq => absurd heq (h _ _ _)

/-- A call that does not answer the request leaves the walk stuck. -/
theorem line_eq_error {selection : Selection} {halt : Halt} {calls rest : List Call}
    (h : line selection calls = .error halt rest) : halt = .stuck := by
  unfold line at h
  split at h
  · split at h
    · exact absurd h ok_ne_error
    · exact (EStateM.Result.error.inj h).1.symm
  · exact (EStateM.Result.error.inj h).1.symm

theorem setKey_eq_error {key : String} {halt : Halt} {calls rest : List Call}
    (h : setKey key calls = .error halt rest) : halt = .stuck := by
  unfold setKey at h
  split at h
  · split at h
    · exact absurd h ok_ne_error
    · exact (EStateM.Result.error.inj h).1.symm
  · exact (EStateM.Result.error.inj h).1.symm

theorem scan_eq_error {stop : Record → Bool} {halt : Halt} {calls rest : List Call}
    (h : scan stop calls = .error halt rest) : halt = .stuck := by
  induction calls with
  | nil => exact (EStateM.Result.error.inj h).1.symm
  | cons call calls ih =>
    rw [scan.eq_def] at h
    split at h
    · next found fields tail heq =>
      obtain ⟨rfl, rfl⟩ := List.cons.inj heq
      split at h
      · split at h
        · exact absurd h ok_ne_error
        · split at h
          · exact absurd h ok_ne_error
          · next hscan =>
            -- the search behind the first record is the one that is stuck
            obtain ⟨rfl, rfl⟩ := EStateM.Result.error.inj h
            exact ih hscan
      · exact (EStateM.Result.error.inj h).1.symm
    · exact (EStateM.Result.error.inj h).1.symm

theorem setKey_eq_ok {key : String} {calls rest : List Call} :
    setKey key calls = .ok () rest ↔ calls = .setKey key :: rest := by
  unfold setKey
  split
  · next found tail =>
    split
    · next heq => subst heq; simp
    · next hne => simp [hne]
  · next h =>
    refine ⟨?_, ?_⟩
    · exact fun heq => absurd heq error_ne_ok
    · exact fun heq => absurd heq (h _ _)

theorem scan_cons {stop : Record → Bool} {fields : Record} (calls : List Call) :
    scan stop (.line (.only [0]) fields :: calls) =
      if stop fields then .ok [fields] calls else ((fields :: ·) <$> scan stop) calls := by
  rw [scan, if_pos rfl]
  change _ = if _ then _ else EStateM.map _ (scan stop) calls
  rw [EStateM.map]
  cases scan stop calls <;> rfl

/-- A search takes the records that fail the test and the first that passes it. -/
theorem scan_eq_ok {stop : Record → Bool} {records : List Record} {calls rest : List Call} :
    scan stop calls = .ok records rest ↔
      ∃ skipped last, records = skipped ++ [last] ∧ (∀ r ∈ skipped, stop r = false) ∧
        stop last = true ∧ calls = records.map (.line (.only [0])) ++ rest := by
  refine ⟨?_, ?_⟩
  · intro h
    -- the induction follows the row, as the search does
    induction calls generalizing records with
    | nil => exact absurd h (by simp [scan])
    | cons call calls ih =>
      rw [scan.eq_def] at h
      split at h
      · next found fields tail heq =>
        obtain ⟨rfl, rfl⟩ := List.cons.inj heq
        split at h
        · next hfound =>
          subst hfound
          split at h
          · next hstop =>
            obtain ⟨rfl, rfl⟩ := EStateM.Result.ok.inj h
            exact ⟨[], fields, rfl, by simp, hstop, rfl⟩
          · next hstop =>
            split at h
            · next records' rest' hscan =>
              obtain ⟨rfl, rfl⟩ := EStateM.Result.ok.inj h
              obtain ⟨skipped, last, rfl, hskipped, hlast, rfl⟩ := ih hscan
              refine ⟨fields :: skipped, last, rfl, fun r hr => ?_, hlast, rfl⟩
              rcases List.mem_cons.1 hr with rfl | hr
              · exact Bool.eq_false_iff.2 hstop
              · exact hskipped r hr
            · exact absurd h error_ne_ok
        · exact absurd h error_ne_ok
      · exact absurd h error_ne_ok
  · rintro ⟨skipped, last, rfl, hskipped, hlast, rfl⟩
    -- conversely, it is on the records that the search passes over
    induction skipped with
    | nil => simp [scan_cons, hlast]
    | cons r skipped ih =>
      have hr : stop r = false := hskipped r List.mem_cons_self
      rw [List.cons_append, List.map_cons, List.cons_append, scan_cons, hr, if_neg (by simp)]
      exact map_of_ok (ih fun r hr => hskipped r (List.mem_cons_of_mem _ hr))

end Walk

namespace Script

variable {α β σ τ : Type}

/-- The walk of a script along a row of calls. -/
def walk : Script α → Walk α
  | done a => pure a
  | refuse cause => throw (.refused cause)
  | breach _ => throw .stuck
  | line selection next => do walk (next (← Walk.line selection))
  | peekBlank next => do walk (next (← Walk.peekBlank))
  | scan stop next => do walk (next (← Walk.scan stop))
  | enter _ next => walk next
  | setRecord _ next => walk next
  | setKey key next => do Walk.setKey key; walk next
  | note _ next => walk next
  | noteLines _ next => walk next

theorem walk_bind (m : Script α) (f : α → Script β) :
    (m >>= f).walk = m.walk >>= fun a => (f a).walk := by
  change (m.bind f).walk = _
  induction m with
  | done a => rfl
  | refuse cause => rfl
  | breach index => rfl
  -- a request is answered first, and both walks go on alike
  | line selection next ih => simp only [bind, walk, ih, bind_assoc]
  | peekBlank next ih => simp only [bind, walk, ih, bind_assoc]
  | scan stop next ih => simp only [bind, walk, ih, bind_assoc]
  -- no call answers these requests, so the walk goes on where it is
  | enter part next ih => exact ih
  | setRecord record next ih => exact ih
  | setKey key next ih => simp only [bind, walk, ih, bind_assoc]
  | note event next ih => exact ih
  | noteLines event next ih => exact ih

/-! ### Accepted rows of calls -/

/-- The script gives back what is written: it accepts the rows of calls that a well-formed value is
written as, and gives the value. -/
def Copies (m : Script α) (calls : α → List Call) (WellFormed : α → Prop) : Prop :=
  ∀ (row rest : List Call) (a : α), m.walk row = .ok a rest ↔ WellFormed a ∧ row = calls a ++ rest

/-- The script makes something of what is written: it accepts the rows of calls that texts of some
kind are written as, and gives the value that the text describes. -/
def Accepts (m : Script α) (calls : τ → List Call) (Describes : τ → α → Prop) : Prop :=
  ∀ (row rest : List Call) (a : α),
    m.walk row = .ok a rest ↔ ∃ t, Describes t a ∧ row = calls t ++ rest

/-- The value in a field, in one of the readings of numerals. -/
def numberAt (read? : String → Option α) (fields : Record) (index : Nat) : Option α :=
  fields[index]?.bind read?

/-- What holds for every entry of a list at its position can be decided. -/
instance decidableForallGetElem? {P : Nat → α → Prop} [∀ i a, Decidable (P i a)] (as : List α) :
    Decidable (∀ i a, as[i]? = some a → P i a) :=
  decidable_of_iff (∀ (i : Nat) (h : i < as.length), P i as[i])
    ⟨fun h i a hi => by
      obtain ⟨hlen, rfl⟩ := List.getElem?_eq_some_iff.1 hi
      exact h i hlen, fun h i hi => h i as[i] (List.getElem?_eq_getElem hi)⟩

section Checks

variable {row rest : List Call}

theorem walk_pure {a b : α} : (pure a : Script α).walk row = .ok b rest ↔ a = b ∧ row = rest :=
  pure_eq_ok

theorem walk_done {a b : α} : (done a).walk row = .ok b rest ↔ a = b ∧ row = rest :=
  pure_eq_ok

theorem walk_bind_eq_ok {m : Script α} {f : α → Script β} {b : β} :
    (m >>= f).walk row = .ok b rest ↔
      ∃ a mid, m.walk row = .ok a mid ∧ (f a).walk mid = .ok b rest := by
  rw [walk_bind, bind_eq_ok]

theorem walk_bind_of_ok {m : Script α} {f : α → Script β} {a : α}
    (h : m.walk row = .ok a rest) : (m >>= f).walk row = (f a).walk rest := by
  rw [walk_bind]
  exact bind_of_ok h

theorem walk_bind_of_error {m : Script α} {f : α → Script β} {halt : Halt}
    (h : m.walk row = .error halt rest) : (m >>= f).walk row = .error halt rest := by
  rw [walk_bind]
  exact bind_of_error h

theorem walk_map_eq_ok {m : Script α} {f : α → β} {b : β} :
    (f <$> m).walk row = .ok b rest ↔ ∃ a, m.walk row = .ok a rest ∧ f a = b := by
  change (m >>= fun a => pure (f a)).walk row = _ ↔ _
  simp only [walk_bind_eq_ok, walk_pure]
  refine ⟨?_, ?_⟩
  · rintro ⟨a, mid, hm, rfl, rfl⟩
    exact ⟨a, hm, rfl⟩
  · rintro ⟨a, hm, rfl⟩
    exact ⟨a, rest, hm, rfl, rfl⟩

theorem walk_refuse {cause : Cause} {a : α} : (refuse cause : Script α).walk row ≠ .ok a rest :=
  nofun

theorem walk_guard {p : Prop} [Decidable p] {cause : Cause} {u : Unit} :
    (if p then pure () else refuse cause : Script Unit).walk row = .ok u rest ↔ p ∧ row = rest := by
  split
  · next h =>
    refine ⟨?_, ?_⟩
    · intro hwalk
      obtain ⟨-, hrow⟩ := walk_pure.1 hwalk
      exact ⟨h, hrow⟩
    · rintro ⟨-, hrow⟩
      exact walk_pure.2 ⟨rfl, hrow⟩
  · next h =>
    refine ⟨?_, ?_⟩
    · intro hwalk
      exact absurd hwalk walk_refuse
    · rintro ⟨hp, -⟩
      exact absurd hp h

theorem walk_line {selection : Selection} {record : Record} :
    (line selection done).walk row = .ok record rest ↔ row = .line selection record :: rest := by
  change (Walk.line _ >>= pure) row = _ ↔ _
  rw [bind_pure, Walk.line_eq_ok]

theorem walk_fields {indices : List Nat} {record : Record} :
    (fields indices).walk row = .ok record rest ↔ row = .line (.only indices) record :: rest :=
  walk_line

theorem walk_setKey {key : String} {u v : Unit} :
    (setKey key (done u)).walk row = .ok v rest ↔ row = .setKey key :: rest := by
  change (Walk.setKey key >>= pure) row = _ ↔ _
  rw [bind_pure, Walk.setKey_eq_ok]

theorem walk_scan {stop : Record → Bool} {records : List Record} :
    (scan stop done).walk row = .ok records rest ↔
      ∃ skipped last, records = skipped ++ [last] ∧ (∀ r ∈ skipped, stop r = false) ∧
        stop last = true ∧ row = records.map (.line (.only [0])) ++ rest := by
  change (Walk.scan stop >>= pure) row = _ ↔ _
  rw [bind_pure, Walk.scan_eq_ok]

theorem walk_peekBlank {blank : Bool} :
    (peekBlank done).walk row = .ok blank rest ↔
      row = rest ∧ ∃ selection record tail, row = .line selection record :: tail ∧
        record.isEmpty = blank := by
  change (Walk.peekBlank >>= pure) row = _ ↔ _
  rw [bind_pure, Walk.peekBlank.eq_def]
  split
  · -- there is a record to look at, and it stays in the row
    next selection record tail =>
    refine ⟨?_, ?_⟩
    · intro h
      obtain ⟨rfl, rfl⟩ := EStateM.Result.ok.inj h
      exact ⟨rfl, selection, record, tail, rfl, rfl⟩
    · rintro ⟨rfl, _, _, _, heq, rfl⟩
      obtain ⟨-, rfl⟩ := Call.line.inj (List.cons.inj heq).1
      rfl
  · next h =>
    refine ⟨?_, ?_⟩
    · exact fun heq => absurd heq error_ne_ok
    · rintro ⟨-, selection, record, tail, rfl, -⟩
      exact absurd rfl (h selection record tail)

theorem walk_blankLine {u : Unit} : blankLine.walk row = .ok u rest ↔ row = blankCall :: rest := by
  rw [blankLine]
  simp only [walk_bind_eq_ok, walk_fields]
  refine ⟨?_, ?_⟩
  · rintro ⟨record, mid, rfl, h⟩
    -- the line is blank if its record has no fields
    split at h
    · next hempty =>
      obtain ⟨-, rfl⟩ := walk_pure.1 h
      rw [List.isEmpty_iff.1 hempty, blankCall]
    · exact absurd h walk_refuse
  · rintro rfl
    exact ⟨[], rest, rfl, rfl⟩

theorem walk_field {fields : Record} {index : Nat} {text : String} :
    (field fields index).walk row = .ok text rest ↔ fields[index]? = some text ∧ row = rest := by
  rw [field]
  split
  · next found h => rw [walk_pure, h, Option.some.injEq]
  · next h => simp [h, walk_refuse]

theorem walk_fieldAt {fields : Record} {index : Nat} {text : String} :
    (fieldAt fields index).walk row = .ok text rest ↔ fields[index]? = some text ∧ row = rest := by
  rw [fieldAt]
  split
  · next found h => rw [walk_pure, h, Option.some.injEq]
  · next h =>
    rw [h]
    exact ⟨nofun, nofun⟩

theorem walk_checked {value : Checked α} {a : α} :
    (checked value).walk row = .ok a rest ↔ value = .ok a ∧ row = rest := by
  cases value with
  | ok b => rw [checked, walk_pure, Except.ok.injEq]
  | error index => exact ⟨nofun, nofun⟩

theorem walk_number {read? : String → Option α} {fields : Record} {index : Nat} {a : α} :
    (number read? fields index).walk row = .ok a rest ↔
      numberAt read? fields index = some a ∧ row = rest := by
  rw [number, walk_bind_eq_ok, numberAt]
  simp only [walk_field, Option.bind_eq_some_iff]
  refine ⟨?_, ?_⟩
  · rintro ⟨text, mid, ⟨htext, rfl⟩, h⟩
    -- the field is there; it is a numeral or it is refused
    split at h
    · next value hvalue =>
      obtain ⟨rfl, rfl⟩ := walk_pure.1 h
      exact ⟨⟨text, htext, hvalue⟩, rfl⟩
    · exact absurd h walk_refuse
  · rintro ⟨⟨text, htext, hvalue⟩, rfl⟩
    exact ⟨text, row, ⟨htext, rfl⟩, by rw [hvalue]; rfl⟩

theorem walk_count {fields : Record} {index n : Nat} :
    (count fields index).walk row = .ok n rest ↔
      numberAt Text.count? fields index = some n ∧ row = rest :=
  walk_number

theorem walk_expectTag {fields : Record} {tag : String} {u : Unit} :
    (expectTag fields tag).walk row = .ok u rest ↔ fields.headD "" = tag ∧ row = rest :=
  walk_guard

theorem walk_expectLength {fields : Record} {length : Nat} {u : Unit} :
    (expectLength fields length).walk row = .ok u rest ↔ fields.length = length ∧ row = rest :=
  walk_guard

theorem walk_expectZero {fields : Record} {index : Nat} {u : Unit} :
    (expectZero fields index).walk row = .ok u rest ↔
      numberAt Text.int64? fields index = some 0 ∧ row = rest := by
  rw [expectZero, walk_bind_eq_ok]
  simp only [walk_number]
  refine ⟨?_, ?_⟩
  · rintro ⟨value, mid, ⟨hvalue, rfl⟩, h⟩
    split at h
    · next hzero =>
      obtain ⟨-, rfl⟩ := walk_pure.1 h
      exact ⟨hzero ▸ hvalue, rfl⟩
    · -- the refusal names the field, which is looked up once more
      obtain ⟨text, mid, -, h⟩ := walk_bind_eq_ok.1 h
      exact absurd h walk_refuse
  · rintro ⟨hvalue, rfl⟩
    exact ⟨0, row, ⟨hvalue, rfl⟩, by rw [if_pos rfl]; rfl⟩

/-- How a flag is written. -/
def flagText (b : Bool) : String := if b then "1" else "0"

theorem walk_flag {fields : Record} {index : Nat} {name : String} {b : Bool} :
    (flag fields index name).walk row = .ok b rest ↔
      fields[index]? = some (flagText b) ∧ row = rest := by
  rw [flag, walk_bind_eq_ok]
  simp only [walk_field]
  refine ⟨?_, ?_⟩
  · rintro ⟨text, mid, ⟨htext, rfl⟩, h⟩
    -- only two texts are flags
    split at h
    · obtain ⟨rfl, rfl⟩ := walk_pure.1 h
      exact ⟨htext, rfl⟩
    · obtain ⟨rfl, rfl⟩ := walk_pure.1 h
      exact ⟨htext, rfl⟩
    · exact absurd h walk_refuse
  · rintro ⟨htext, rfl⟩
    refine ⟨flagText b, row, ⟨htext, rfl⟩, ?_⟩
    cases b <;> rfl

end Checks

/-! ### Steps without calls -/

section Silent

variable (u : Unit) (f : Unit → Script α)

@[simp] theorem walk_enter_bind (part : Section) :
    (enter part (done u) >>= f).walk = (f u).walk := rfl

@[simp] theorem walk_setRecord_bind (record : Nat) :
    (setRecord record (done u) >>= f).walk = (f u).walk := rfl

@[simp] theorem walk_note_bind (event : Event) :
    (note event (done u) >>= f).walk = (f u).walk := rfl

@[simp] theorem walk_noteLines_bind (event : Nat → Event) :
    (noteLines event (done u) >>= f).walk = (f u).walk := rfl

end Silent

/-! ### Loops -/

/-- A row of texts carries a state on, by one step for each. -/
def Chain (Step : Nat → σ → τ → σ → Prop) : Nat → σ → List τ → σ → Prop
  | _, s, [], s' => s = s'
  | i, s, t :: ts, s' => ∃ s₁, Step i s t s₁ ∧ Chain Step (i + 1) s₁ ts s'

section Loops

variable {row rest : List Call} {calls : τ → List Call}

/-- A counted loop takes one text for each round. -/
theorem walk_rounds {f : Nat → σ → Script σ} {Step : Nat → σ → τ → σ → Prop}
    (h : ∀ i s, (f i s).Accepts calls (Step i s)) {n i : Nat} {s s' : σ} :
    (rounds f n i s).walk row = .ok s' rest ↔
      ∃ ts : List τ, ts.length = n ∧ Chain Step i s ts s' ∧ row = ts.flatMap calls ++ rest := by
  -- the induction is on the rounds that are left; the text of the first of them stands in front
  induction n generalizing i s row with
  | zero =>
    rw [rounds, walk_pure]
    refine ⟨?_, ?_⟩
    · rintro ⟨rfl, rfl⟩
      exact ⟨[], rfl, rfl, rfl⟩
    · rintro ⟨ts, hlen, hchain, rfl⟩
      obtain rfl := List.length_eq_zero_iff.1 hlen
      exact ⟨hchain, rfl⟩
  | succ n ih =>
    rw [rounds, walk_bind_eq_ok]
    simp only [h i s _ _ _, ih]
    refine ⟨?_, ?_⟩
    · rintro ⟨s₁, mid, ⟨t, ht, rfl⟩, ts, hlen, hchain, rfl⟩
      -- the text of the first round stands in front of the others
      refine ⟨t :: ts, ?_, ⟨s₁, ht, hchain⟩, ?_⟩
      · rw [List.length_cons, hlen]
      · rw [List.flatMap_cons, List.append_assoc]
    · rintro ⟨ts, hlen, hchain, rfl⟩
      -- there is a round left, so there is a first text
      obtain ⟨t, ts, rfl⟩ := List.exists_cons_of_length_eq_add_one hlen
      obtain ⟨s₁, ht, hchain⟩ := hchain
      refine ⟨s₁, ts.flatMap calls ++ rest, ⟨t, ht, ?_⟩, ts, Nat.succ.inj hlen, hchain, rfl⟩
      rw [List.flatMap_cons, List.append_assoc]

theorem walk_foldTimes {f : Nat → σ → Script σ} {Step : Nat → σ → τ → σ → Prop}
    (h : ∀ i s, (f i s).Accepts calls (Step i s)) {n : Nat} {s s' : σ} :
    (foldTimes n f s).walk row = .ok s' rest ↔
      ∃ ts : List τ, ts.length = n ∧ Chain Step 0 s ts s' ∧ row = ts.flatMap calls ++ rest :=
  walk_rounds h

/-- A chain whose steps fold the values of texts into the state, where each step may fail. -/
theorem chain_foldlM_iff {ε : Type} {value : τ → β} {WellFormed : τ → Prop} {g : σ → β → Except ε σ}
    {i : Nat} {s s' : σ} {ts : List τ} :
    Chain (fun _ s t s' => g s (value t) = .ok s' ∧ WellFormed t) i s ts s' ↔
      (ts.map value).foldlM g s = .ok s' ∧ ∀ t ∈ ts, WellFormed t := by
  induction ts generalizing i s with
  | nil =>
    refine ⟨?_, ?_⟩
    · intro h
      exact ⟨congrArg Except.ok h, nofun⟩
    · rintro ⟨hfold, -⟩
      exact Except.ok.inj hfold
  | cons t ts ih =>
    rw [Chain, List.map_cons, List.foldlM_cons]
    simp only [ih]
    refine ⟨?_, ?_⟩
    · rintro ⟨s₁, ⟨hstep, ht⟩, hfold, hts⟩
      refine ⟨by rw [hstep]; exact hfold, fun u hu => ?_⟩
      rcases List.mem_cons.1 hu with rfl | hu
      · exact ht
      · exact hts u hu
    · rintro ⟨hfold, hall⟩
      -- the fold stops at the first step that fails, and then there is no chain
      cases hstep : g s (value t) with
      | ok s₁ =>
        rw [hstep] at hfold
        exact ⟨s₁, ⟨rfl, hall t List.mem_cons_self⟩, hfold,
          fun u hu => hall u (List.mem_cons_of_mem _ hu)⟩
      | error e =>
        rw [hstep] at hfold
        exact absurd hfold nofun

/-- A counted loop that folds the values of its texts into a state, where each step may fail. -/
theorem Accepts.foldTimesM {ε : Type} {f : Nat → σ → Script σ} {value : τ → β}
    {WellFormed : τ → Prop} {g : σ → β → Except ε σ} {n : Nat} {s : σ}
    (h : ∀ i s, (f i s).Accepts calls fun t s' => g s (value t) = .ok s' ∧ WellFormed t) :
    (Script.foldTimes n f s).Accepts (·.flatMap calls) fun (ts : List τ) s' =>
      (ts.map value).foldlM g s = .ok s' ∧ ts.length = n ∧ ∀ t ∈ ts, WellFormed t := by
  intro row rest s'
  rw [walk_foldTimes h]
  simp only [chain_foldlM_iff]
  -- the two sides differ in how the conditions are bracketed
  refine ⟨?_, ?_⟩
  · rintro ⟨ts, hlen, ⟨hfold, hall⟩, hrow⟩
    exact ⟨ts, ⟨hfold, hlen, hall⟩, hrow⟩
  · rintro ⟨ts, ⟨hfold, hlen, hall⟩, hrow⟩
    exact ⟨ts, hlen, ⟨hfold, hall⟩, hrow⟩

/-- A counted loop that folds the values of its texts into a state. -/
theorem Accepts.foldTimes {f : Nat → σ → Script σ} {value : τ → β} {WellFormed : τ → Prop}
    {g : σ → β → σ} {n : Nat} {s : σ}
    (h : ∀ i s, (f i s).Accepts calls fun t s' => g s (value t) = s' ∧ WellFormed t) :
    (Script.foldTimes n f s).Accepts (·.flatMap calls) fun (ts : List τ) s' =>
      (ts.map value).foldl g s = s' ∧ ts.length = n ∧ ∀ t ∈ ts, WellFormed t := by
  -- a fold that cannot fail is one that may fail and never does
  have hpure : ∀ i s, (f i s).Accepts calls fun t s' =>
      (pure (g s (value t)) : Except Empty σ) = .ok s' ∧ WellFormed t := by
    intro i s row rest s'
    rw [h i s]
    simp only [pure, Except.pure, Except.ok.injEq]
  have hfold : ∀ bs : List β,
      bs.foldlM (fun s b => (pure (g s b) : Except Empty σ)) s = .ok (bs.foldl g s) :=
    fun _ => List.foldlM_pure
  intro row rest s'
  rw [Accepts.foldTimesM (g := fun s b => (pure (g s b) : Except Empty σ)) hpure]
  simp only [hfold, Except.ok.injEq]

/-- Collecting the values of texts is a chain whose state is the list of the values so far. -/
theorem chain_cons_iff {value : τ → α} {WellFormed : Nat → τ → Prop} {i : Nat} {ts : List τ}
    {found out : List α} :
    Chain (fun i found t found' => WellFormed i t ∧ value t :: found = found') i found ts out ↔
      (∀ j t, ts[j]? = some t → WellFormed (i + j) t) ∧ (ts.map value).reverse ++ found = out := by
  induction ts generalizing i found with
  | nil => simp [Chain]
  | cons t ts ih =>
    rw [Chain]
    simp only [ih]
    refine ⟨?_, ?_⟩
    · rintro ⟨_, ⟨ht, rfl⟩, hts, rfl⟩
      refine ⟨fun j u hj => ?_, by simp⟩
      -- the first text has the number of the round, and the others are counted from the next
      cases j with
      | zero =>
        obtain rfl : t = u := Option.some.inj hj
        exact ht
      | succ j =>
        have hu := hts j u hj
        rwa [Nat.add_right_comm] at hu
    · rintro ⟨hall, rfl⟩
      refine ⟨value t :: found, ⟨hall 0 t rfl, rfl⟩, fun j u hj => ?_, by simp⟩
      rw [Nat.add_right_comm]
      exact hall (j + 1) u hj

/-- The results of a counted loop are the values of its texts, in order. -/
theorem Accepts.forEach {f : Nat → Script α} {value : τ → α} {WellFormed : Nat → τ → Prop} {n : Nat}
    (h : ∀ i, (f i).Accepts calls fun t a => value t = a ∧ WellFormed i t) :
    (Script.forEach n f).Accepts (·.flatMap calls) fun (ts : List τ) as =>
      ts.map value = as ∧ ts.length = n ∧ ∀ i t, ts[i]? = some t → WellFormed i t := by
  -- the loop collects its results in front of each other, and they are turned around at its end
  have hround : ∀ i (found : List α), Accepts (do return (← f i) :: found) calls
      fun t found' => WellFormed i t ∧ value t :: found = found' := by
    intro i found row rest found'
    simp only [walk_bind_eq_ok, h i _ _ _, walk_pure]
    refine ⟨?_, ?_⟩
    · rintro ⟨_, mid, ⟨t, ⟨rfl, ht⟩, rfl⟩, rfl, rfl⟩
      exact ⟨t, ⟨ht, rfl⟩, rfl⟩
    · rintro ⟨t, ⟨ht, rfl⟩, rfl⟩
      exact ⟨value t, rest, ⟨t, ⟨rfl, ht⟩, rfl⟩, rfl, rfl⟩
  intro row rest as
  rw [Script.forEach, walk_map_eq_ok]
  simp only [walk_foldTimes hround, chain_cons_iff, Nat.zero_add]
  -- the state at the end of the chain is the list of the values, turned around
  refine ⟨?_, ?_⟩
  · rintro ⟨_, ⟨ts, hlen, ⟨hall, rfl⟩, rfl⟩, rfl⟩
    exact ⟨ts, ⟨by simp, hlen, hall⟩, rfl⟩
  · rintro ⟨ts, ⟨rfl, hlen, hall⟩, rfl⟩
    exact ⟨(ts.map value).reverse, ⟨ts, hlen, ⟨hall, by simp⟩, rfl⟩, by simp⟩

/-- A loop whose rounds are alike. -/
theorem Accepts.times {m : Script α} {value : τ → α} {WellFormed : τ → Prop} {n : Nat}
    (h : m.Accepts calls fun t a => value t = a ∧ WellFormed t) :
    (Script.times n m).Accepts (·.flatMap calls) fun (ts : List τ) as =>
      ts.map value = as ∧ ts.length = n ∧ ∀ t ∈ ts, WellFormed t := by
  intro row rest as
  rw [Script.times, Accepts.forEach (fun _ => h)]
  simp only [List.mem_iff_getElem?]
  -- to hold at every position is to hold of every member
  refine ⟨?_, ?_⟩
  · rintro ⟨ts, ⟨hvalue, hlen, hall⟩, hrow⟩
    exact ⟨ts, ⟨hvalue, hlen, fun t ⟨i, hi⟩ => hall i t hi⟩, hrow⟩
  · rintro ⟨ts, ⟨hvalue, hlen, hall⟩, hrow⟩
    exact ⟨ts, ⟨hvalue, hlen, fun i t hi => hall t ⟨i, hi⟩⟩, hrow⟩

/-- A loop over the entries of a list takes one text for each entry. -/
theorem Accepts.forEntries {f : Nat → β → Script α} {value : τ → α} {entry : τ → β}
    {WellFormed : τ → Prop}
    (h : ∀ i b, (f i b).Accepts calls fun t a => value t = a ∧ entry t = b ∧ WellFormed t)
    (entries : List β) :
    (Script.forEntries entries f).Accepts (·.flatMap calls) fun (ts : List τ) as =>
      ts.map value = as ∧ ts.map entry = entries ∧ ∀ t ∈ ts, WellFormed t := by
  -- the loop is looked at in its middle, where some results are found and some entries are left
  suffices hgo : ∀ (entries : List β) i found row rest as,
      (forEntries.go f entries i found).walk row = .ok as rest ↔
        ∃ ts : List τ, found.reverse ++ ts.map value = as ∧
          (ts.map entry = entries ∧ ∀ t ∈ ts, WellFormed t) ∧ row = ts.flatMap calls ++ rest by
    intro row rest as
    rw [Script.forEntries, hgo]
    simp only [List.reverse_nil, List.nil_append, and_assoc]
  intro entries
  induction entries with
  | nil =>
    intro i found row rest as
    -- no entry is left: the results are turned around
    rw [forEntries.go, walk_pure]
    refine ⟨?_, ?_⟩
    · rintro ⟨rfl, rfl⟩
      exact ⟨[], by simp, ⟨rfl, by simp⟩, rfl⟩
    · rintro ⟨ts, rfl, ⟨hnil, -⟩, rfl⟩
      obtain rfl := List.map_eq_nil_iff.1 hnil
      exact ⟨by simp, rfl⟩
  | cons b entries ih =>
    intro i found row rest as
    rw [forEntries.go, walk_bind_eq_ok]
    simp only [h i b _ _ _, ih]
    refine ⟨?_, ?_⟩
    · rintro ⟨_, mid, ⟨t, ⟨rfl, rfl, ht⟩, rfl⟩, ts, rfl, ⟨rfl, hts⟩, rfl⟩
      refine ⟨t :: ts, by simp, ⟨rfl, fun u hu => ?_⟩, by simp⟩
      rcases List.mem_cons.1 hu with rfl | hu
      · exact ht
      · exact hts u hu
    · rintro ⟨ts, rfl, ⟨hcons, hts⟩, rfl⟩
      -- the texts follow the entries, so the first entry has a text of its own
      obtain ⟨t, ts, rfl, rfl, rfl⟩ := List.map_eq_cons_iff.1 hcons
      have ht := hts t List.mem_cons_self
      have hrest : ∀ u ∈ ts, WellFormed u := fun u hu => hts u (List.mem_cons_of_mem _ hu)
      exact ⟨value t, _, ⟨t, ⟨rfl, rfl, ht⟩, by simp⟩, ts, by simp, ⟨rfl, hrest⟩, rfl⟩

end Loops

/-! ### Loops over what is copied -/

section Copies

variable {row rest : List Call} {calls : α → List Call} {n : Nat} {as : List α}

theorem Copies.accepts {m : Script α} {WellFormed : α → Prop} (h : m.Copies calls WellFormed) :
    m.Accepts calls fun t a => id t = a ∧ WellFormed t := by
  intro row rest a
  rw [h]
  refine ⟨?_, ?_⟩
  · rintro ⟨ha, hrow⟩
    exact ⟨a, ⟨rfl, ha⟩, hrow⟩
  · rintro ⟨_, ⟨rfl, ha⟩, hrow⟩
    exact ⟨ha, hrow⟩

theorem Copies.forEach {f : Nat → Script α} {WellFormed : Nat → α → Prop}
    (h : ∀ i, (f i).Copies calls (WellFormed i)) :
    (Script.forEach n f).Copies (·.flatMap calls) fun as =>
      as.length = n ∧ ∀ i a, as[i]? = some a → WellFormed i a := by
  intro row rest as
  rw [Accepts.forEach fun i => (h i).accepts]
  simp only [List.map_id]
  refine ⟨?_, ?_⟩
  · rintro ⟨_, ⟨rfl, hts⟩, hrow⟩
    exact ⟨hts, hrow⟩
  · rintro ⟨has, hrow⟩
    exact ⟨as, ⟨rfl, has⟩, hrow⟩

/-- A loop whose rounds copy alike. -/
theorem Copies.rounds {f : Nat → Script α} {WellFormed : α → Prop}
    (h : ∀ i, (f i).Copies calls WellFormed) :
    (Script.forEach n f).Copies (·.flatMap calls) fun as =>
      as.length = n ∧ ∀ a ∈ as, WellFormed a := by
  intro row rest as
  rw [Copies.forEach h]
  simp only [List.mem_iff_getElem?]
  refine ⟨?_, ?_⟩
  · rintro ⟨⟨hlen, hall⟩, hrow⟩
    exact ⟨⟨hlen, fun a ⟨i, hi⟩ => hall i a hi⟩, hrow⟩
  · rintro ⟨⟨hlen, hall⟩, hrow⟩
    exact ⟨⟨hlen, fun i a hi => hall a ⟨i, hi⟩⟩, hrow⟩

theorem Copies.times {m : Script α} {WellFormed : α → Prop} (h : m.Copies calls WellFormed) :
    (times n m).Copies (·.flatMap calls) fun as => as.length = n ∧ ∀ a ∈ as, WellFormed a :=
  Copies.rounds fun _ => h

theorem line_copies (selection : Selection) :
    (line selection done).Copies (fun record => [.line selection record]) fun _ => True := by
  intro row rest record
  rw [walk_line]
  exact ⟨fun h => ⟨trivial, h⟩, fun h => h.2⟩

/-- A loop that takes one line in each round. -/
theorem Copies.lines {f : Nat → Script Record} {selection : Selection}
    (h : ∀ i, (f i).Copies (fun record => [.line selection record]) fun _ => True) :
    (Script.forEach n f).Copies (·.map (.line selection)) fun records => records.length = n := by
  intro row rest records
  -- one line for each record
  rw [Copies.rounds h]
  simp only [← List.map_eq_flatMap]
  refine ⟨?_, ?_⟩
  · rintro ⟨⟨hlen, -⟩, hrow⟩
    exact ⟨hlen, hrow⟩
  · rintro ⟨hlen, hrow⟩
    exact ⟨⟨hlen, fun _ _ => trivial⟩, hrow⟩

theorem walk_times_fields {indices : List Nat} {records : List Record} :
    (times n (fields indices)).walk row = .ok records rest ↔
      records.length = n ∧ row = records.map (.line (.only indices)) ++ rest :=
  Copies.lines (fun _ => line_copies _) row rest records

theorem walk_times_fieldsBut {indices : List Nat} {records : List Record} :
    (times n (fieldsBut indices)).walk row = .ok records rest ↔
      records.length = n ∧ row = records.map (.line (.allBut indices)) ++ rest :=
  Copies.lines (fun _ => line_copies _) row rest records

/-- A loop of checks takes nothing. -/
theorem walk_forEach_check {f : Nat → Script Unit} {P : Nat → Prop} {units : List Unit}
    (h : ∀ i (row rest : List Call) u, (f i).walk row = .ok u rest ↔ P i ∧ row = rest) :
    (forEach n f).walk row = .ok units rest ↔
      units.length = n ∧ (∀ i < n, P i) ∧ row = rest := by
  have hcheck : ∀ i, (f i).Copies (fun _ => []) fun _ => P i := fun i row rest u => h i row rest u
  rw [Copies.forEach hcheck]
  -- no round leaves a trace in the row
  have hnil : units.flatMap (fun _ => ([] : List Call)) = [] := by simp
  simp only [hnil, List.nil_append]
  refine ⟨?_, ?_⟩
  · rintro ⟨⟨hlen, hall⟩, hrow⟩
    refine ⟨hlen, fun i hi => ?_, hrow⟩
    have hunit : i < units.length := hlen ▸ hi
    exact hall i units[i] (List.getElem?_eq_getElem hunit)
  · rintro ⟨hlen, hall, hrow⟩
    refine ⟨⟨hlen, fun i u hu => ?_⟩, hrow⟩
    obtain ⟨hi, -⟩ := List.getElem?_eq_some_iff.1 hu
    exact hall i (hlen ▸ hi)

end Copies

end Script

end ChipAtlas
