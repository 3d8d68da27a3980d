import ChipAtlas.Proofs.Reading.Dump
import ChipAtlas.Proofs.Script.Shows

/-!
# The lines that a script asks for

Carried out on a reading, a script asks for one line after the other. `Script.requests` lists these
requests, each with the fields that are to be deciphered, the line that is next and the key stream.
Whether a request is answered can be told from it alone (`LineRequest.answer?`).

The requests account for everything a reading does line by line. As long as they are answered, each
takes a line, counts it and puts its record into the dump (`Reading.Answers`). A violation is found
in one of three ways: by a check on what has been read, by a request that is not answered, or by a
look behind the last line (`Reading.Refused`). That there are no other ways is one induction over
scripts.

* `Reading.Follows.bind` — two works one after the other;
* `Reading.follows_run` — every attentive script.
-/

namespace ChipAtlas

open Cipher (KeyStream)
open Stateful

/-! ### Requests -/

/-- A request for a line: which fields are to be deciphered, the line that is next, if there is one,
and the key stream, if there is one. -/
structure LineRequest where
  selection : Selection
  line : Option Text.Line
  keys : Option KeyStream
  deriving DecidableEq

/-- The record that answers a request, if the line is there and its fields can be deciphered. -/
def LineRequest.answer? (r : LineRequest) : Option Record :=
  match r.line with
  | some (.text raw) =>
    match Reading.deciphered r.selection raw r.keys with
    | .ok record _ => some record
    | .error _ _ => none
  | some .unreadable | none => none

namespace Reading

/-- The request for the next line. -/
def request (s : Reading) (selection : Selection) : LineRequest :=
  ⟨selection, s.lines.head?, s.keys⟩

/-- The requests of what follows a work, if the work succeeds. -/
def following {α : Type} (m : Read α) (next : α → Reading → List LineRequest) (s : Reading) :
    List LineRequest :=
  match m s with
  | .ok a s' => next a s'
  | .error _ _ => []

/-- The requests of a search for a line, bounded by the unread lines as the search is. -/
def searchRequests (stop : Record → Bool) : List Text.Line → Nat → Reading → List LineRequest
  | [], record, s => following (setRecord record) (fun _ s₁ => [s₁.request (.only [0])]) s
  | _ :: unread, record, s =>
    following (setRecord record)
      (fun _ s₁ => s₁.request (.only [0]) :: following (line (.only [0]))
        (fun fields s₂ =>
          if stop fields then [] else searchRequests stop unread (record + 1) s₂) s₁) s

end Reading

/-- The lines that a script asks for when it is carried out on a reading. -/
def Script.requests {α : Type} : Script α → Reading → List LineRequest
  | done _, _ | refuse _, _ | breach _, _ => []
  | line selection next, s =>
    s.request selection :: Reading.following (Reading.line selection) (fun a => (next a).requests) s
  | peekBlank next, s => Reading.following Reading.peekBlank (fun a => (next a).requests) s
  | scan stop next, s =>
    Reading.searchRequests stop s.lines 0 s ++
      Reading.following (Reading.scan stop) (fun a => (next a).requests) s
  | enter part next, s => Reading.following (Reading.enter part) (fun _ => next.requests) s
  | setRecord record next, s =>
    Reading.following (Reading.setRecord record) (fun _ => next.requests) s
  | setKey key next, s => Reading.following (Reading.setKey key) (fun _ => next.requests) s
  | note event next, s => Reading.following (Reading.note event) (fun _ => next.requests) s
  | noteLines event next, s =>
    Reading.following (do Reading.note (event (← get).place.line)) (fun _ => next.requests) s

namespace Reading

/-! ### What requests do to a reading -/

/-- Requests that are all answered lead from one reading to another: each has taken a line and
counted it, and its record has gone into the dump. -/
structure Answers (s : Reading) (asked : List LineRequest) (records : List Record) (s' : Reading) :
    Prop where
  answered : asked.map LineRequest.answer? = records.map some
  lines_eq : s.lines.map some = asked.map LineRequest.line ++ s'.lines.map some
  line_eq : s'.place.line = s.place.line + asked.length
  dumps : Dumps s.dump records s'.dump

/-- What has been asked for, and what has been answered, when a violation is found. -/
inductive Refused (s : Reading) : List LineRequest → List Record → Violation → Reading → Prop where
  /-- A check on what has been read. -/
  | check {asked records v s'} (h : Answers s asked records s')
      (hline : v.place.line = s'.place.line) (hcause : v.cause ≠ .unexpectedEnd) :
      Refused s asked records v s'
  /-- A request that is not answered. -/
  | line {asked records v s₁ s'} (h : Answers s asked records s₁) {selection : Selection}
      (hnone : (s₁.request selection).answer? = none) (hline : v.place.line = s₁.place.line + 1)
      (hcause : v.cause = .unexpectedEnd ↔ s₁.lines = []) (hdump : s'.dump = s₁.dump) :
      Refused s (asked ++ [s₁.request selection]) records v s'
  /-- A look behind the last line. -/
  | look {asked records v s₁ s'} (h : Answers s asked records s₁) (hlines : s₁.lines = [])
      (hline : v.place.line = s₁.place.line + 1) (hcause : v.cause = .unexpectedEnd)
      (hdump : s'.dump = s₁.dump) : Refused s asked records v s'

/-- The outcome of a work on a reading follows from the requests of the work. -/
def Follows {α : Type} (s : Reading) (asked : List LineRequest) :
    EStateM.Result Failure Reading α → Prop
  | .ok _ s' => ∃ records, Answers s asked records s'
  | .error (.violation v) s' => ∃ records, Refused s asked records v s'
  | .error (.io _) _ | .error (.breach _) _ => True

variable {α β : Type} {s s₁ s' : Reading} {asked asked' : List LineRequest}
  {records records' : List Record}

/-- A work that asks for no line. -/
theorem Answers.nil (hlines : s'.lines = s.lines) (hline : s'.place.line = s.place.line)
    (hdump : s'.dump = s.dump) : Answers s [] [] s' :=
  ⟨rfl, by rw [hlines]; rfl, hline, hdump.symm⟩

theorem Answers.append (h : Answers s asked records s₁) (h' : Answers s₁ asked' records' s') :
    Answers s (asked ++ asked') (records ++ records') s' where
  answered := by rw [List.map_append, List.map_append, h.answered, h'.answered]
  lines_eq := by rw [h.lines_eq, h'.lines_eq, List.map_append, List.append_assoc]
  line_eq := by rw [h'.line_eq, h.line_eq, List.length_append, Nat.add_assoc]
  dumps := h.dumps.append h'.dumps

theorem answer?_request {selection : Selection} {raw : String} {rest : List Text.Line}
    (hlines : s.lines = .text raw :: rest) :
    (s.request selection).answer? =
      match deciphered selection raw s.keys with
      | .ok record _ => some record
      | .error _ _ => none := by
  rw [LineRequest.answer?, request, hlines]
  rfl

/-- **A line that is read** is a request that is answered. -/
theorem answers_line {selection : Selection} {record : Record}
    (h : line selection s = .ok record s') : Answers s [s.request selection] [record] s' := by
  obtain ⟨raw, rest, keys, hlines, hd, hcomplete, rfl⟩ := line_eq_ok.1 h
  have hanswer : (s.request selection).answer? = some record := by
    rw [answer?_request hlines, hd]
  refine ⟨by rw [List.map_singleton, hanswer]; rfl, ?_, rfl, ?_⟩
  · rw [request, hlines]
    rfl
  · exact ⟨lineFeed_not_mem_of_deciphered hd, hcomplete, rfl⟩

theorem ne_unexpectedEnd_of_decipherFields {indices : List Nat} {fields : Record} {cause : Cause}
    {keys keys' : Option KeyStream}
    (h : decipherFields indices fields keys = .error cause keys') : cause ≠ .unexpectedEnd := by
  induction indices generalizing fields keys with
  | nil => exact absurd h ok_ne_error
  | cons i indices ih =>
    rw [decipherFields] at h
    split at h
    · obtain ⟨rfl, -⟩ := EStateM.Result.error.inj h
      simp
    · split at h
      · exact ih h
      · obtain ⟨rfl, -⟩ := EStateM.Result.error.inj h
        simp

/-- A line is a request. -/
theorem follows_line (selection : Selection) (s : Reading) :
    Follows s [s.request selection] (line selection s) := by
  have hstart : Answers s [] [] s := .nil rfl rfl rfl
  cases hlines : s.lines with
  | nil =>
    -- there is no line
    have hnone : (s.request selection).answer? = none := by
      rw [LineRequest.answer?, request, hlines]
      rfl
    rw [line_nil hlines]
    exact ⟨[], .line hstart hnone rfl (iff_of_true rfl hlines) rfl⟩
  | cons first rest =>
    cases first with
    | unreadable =>
      rw [line_unreadable hlines]
      trivial
    | text raw =>
      rw [line_text hlines]
      cases hd : deciphered selection raw s.keys with
      | error cause keys =>
        -- the line is there, and one of its fields cannot be deciphered
        have hnone : (s.request selection).answer? = none := by rw [answer?_request hlines, hd]
        have hcause : cause = .unexpectedEnd ↔ s.lines = [] := by
          refine iff_of_false (ne_unexpectedEnd_of_decipherFields hd) ?_
          rw [hlines]
          exact List.cons_ne_nil _ _
        exact ⟨[], .line hstart hnone rfl hcause rfl⟩
      | ok record keys =>
        dsimp only
        split
        · next hcomplete =>
          have hread := line_eq_ok.2 ⟨raw, rest, keys, hlines, hd, hcomplete, rfl⟩
          exact ⟨[record], answers_line hread⟩
        · trivial

/-- A look at the next line asks for no line. Behind the last line it fails. -/
theorem follows_peekBlank (s : Reading) : Follows s [] (peekBlank s) := by
  cases hlines : s.lines with
  | nil =>
    rw [peekBlank_nil hlines]
    exact ⟨[], .look (.nil rfl rfl rfl) hlines rfl rfl rfl⟩
  | cons first rest =>
    cases first with
    | unreadable =>
      rw [peekBlank_unreadable hlines]
      trivial
    | text raw =>
      rw [peekBlank_text hlines]
      exact ⟨[], .nil rfl rfl rfl⟩

/-- A key that cannot be used is found by a check. -/
theorem follows_setKey (key : String) (s : Reading) : Follows s [] (setKey key s) := by
  unfold setKey
  split
  · exact ⟨[], .nil rfl rfl rfl⟩
  · exact ⟨[], .check (.nil rfl rfl rfl) rfl nofun⟩

/-! ### Works one after the other -/

theorem Answers.refused {v : Violation} (h : Answers s asked records s₁)
    (h' : Refused s₁ asked' records' v s') :
    Refused s (asked ++ asked') (records ++ records') v s' := by
  cases h' with
  | check h' hline hcause => exact .check (h.append h') hline hcause
  | line h' hnone hline hcause hdump =>
    rw [← List.append_assoc]
    exact .line (h.append h') hnone hline hcause hdump
  | look h' hlines hline hcause hdump => exact .look (h.append h') hlines hline hcause hdump

theorem Answers.follows {r : EStateM.Result Failure Reading α} (h : Answers s asked records s₁)
    (h' : Follows s₁ asked' r) : Follows s (asked ++ asked') r := by
  cases r with
  | ok a s' =>
    obtain ⟨records', h'⟩ := h'
    exact ⟨_, h.append h'⟩
  | error e s' =>
    cases e with
    | violation v =>
      obtain ⟨records', h'⟩ := h'
      exact ⟨_, h.refused h'⟩
    | io e => trivial
    | breach index => trivial

/-- A failure is the same whatever the work would have given. -/
theorem Follows.error {e : Failure} (h : Follows (α := α) s asked (.error e s')) :
    Follows (α := β) s asked (.error e s') := by
  cases e <;> exact h

/-- **Works one after the other** ask for their lines one after the other. -/
theorem Follows.bind {m : Read α} {f : α → Read β} {next : α → Reading → List LineRequest}
    (h : Follows s asked (m s)) (hf : ∀ a s₁, Follows s₁ (next a s₁) (f a s₁)) :
    Follows s (asked ++ following m next s) ((m >>= f) s) := by
  cases hm : m s with
  | ok a s₁ =>
    rw [hm] at h
    obtain ⟨records, h⟩ := h
    rw [bind_of_ok hm, following, hm]
    exact h.follows (hf a s₁)
  | error e s₁ =>
    -- the second work is not carried out, and asks for nothing
    rw [hm] at h
    rw [bind_of_error hm, following, hm, List.append_nil]
    exact h.error

theorem Follows.map {m : Read α} {g : α → β} (h : Follows s asked (m s)) :
    Follows s asked ((do return g (← m)) s) := by
  have hpure : ∀ a s₁, Follows s₁ [] ((pure (g a) : Read β) s₁) :=
    fun a s₁ => ⟨[], .nil rfl rfl rfl⟩
  have hnil : following m (fun _ _ => []) s = [] := by
    rw [following]
    split <;> rfl
  have hbind : Follows s (asked ++ following m (fun _ _ => []) s) ((do return g (← m)) s) :=
    h.bind hpure
  rwa [hnil, List.append_nil] at hbind

/-! ### Scripts -/

theorem follows_scanLines (stop : Record → Bool) (unread : List Text.Line) (record : Nat)
    (s : Reading) :
    Follows s (searchRequests stop unread record s) (scanLines stop unread record s) := by
  have hset : Follows s [] (setRecord record s) := ⟨[], .nil rfl rfl rfl⟩
  induction unread generalizing record s with
  | nil => exact hset.bind fun _ s₁ => (follows_line (.only [0]) s₁).map
  | cons first unread ih =>
    have hrest : ∀ fields s₂, Follows s₂
        (if stop fields then [] else searchRequests stop unread (record + 1) s₂)
        ((if stop fields then return [fields]
          else return fields :: (← scanLines stop unread (record + 1)) : Read _) s₂) := by
      intro fields s₂
      cases hstop : stop fields with
      | true => exact ⟨[], .nil rfl rfl rfl⟩
      | false => exact (ih (record + 1) s₂ ⟨[], .nil rfl rfl rfl⟩).map
    exact hset.bind fun _ s₁ => (follows_line (.only [0]) s₁).bind hrest

/-- **Every attentive script** makes its outcome of the lines that it asks for. -/
theorem follows_run {m : Script α} (hm : m.Attentive) (s : Reading) :
    Follows s (m.requests s) (m.run s) := by
  induction m generalizing s with
  | done a => exact ⟨[], .nil rfl rfl rfl⟩
  | refuse cause => exact ⟨[], .check (.nil rfl rfl rfl) rfl hm⟩
  | breach index => trivial
  | line selection next ih => exact (follows_line selection s).bind fun a => ih a (hm a)
  | peekBlank next ih => exact (follows_peekBlank s).bind fun blank => ih blank (hm blank).2
  | scan stop next ih =>
    exact (follows_scanLines stop s.lines 0 s).bind fun records => ih records (hm records)
  | enter part next ih =>
    have henter : Follows s [] (enter part s) := ⟨[], .nil rfl rfl rfl⟩
    exact henter.bind fun _ => ih hm
  | setRecord record next ih =>
    have hset : Follows s [] (setRecord record s) := ⟨[], .nil rfl rfl rfl⟩
    exact hset.bind fun _ => ih hm
  | setKey key next ih => exact (follows_setKey key s).bind fun _ => ih hm
  | note event next ih =>
    have hnote : Follows s [] (note event s) := ⟨[], .nil rfl rfl rfl⟩
    exact hnote.bind fun _ => ih hm
  | noteLines event next ih =>
    have hnote : Follows s [] ((do note (event (← get).place.line) : Read Unit) s) :=
      ⟨[], .nil rfl rfl rfl⟩
    exact hnote.bind fun _ => ih hm

end Reading

end ChipAtlas
