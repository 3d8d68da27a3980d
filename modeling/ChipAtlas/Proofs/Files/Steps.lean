import ChipAtlas.Files.Staging
import ChipAtlas.Proofs.Stateful
import Mathlib.Logic.Function.Basic

/-!
# Tasks, step by step

`Task.run` carries a task out on a tree that nobody else uses and where every request is granted
that the tree can grant. Here a task goes on one request at a time. A request may also be refused,
for any cause, as a full or failing device refuses it; and between two steps of a task, steps of
other tasks may come. Only the dropping of temporary files is never refused, because the result of
a task does not tell whether it worked.

* `Task.Step` — one request and its answer;
* `Task.Ends` — what a task alone can end with, `Task.ends_of_run` one such end;
* `Task.EndsReporting` — the same, with the events that are reported on the way, and with the paths
  of which a removal may be refused;
* `Task.EndTogether` — what tasks can end with whose steps are interleaved in some order;
* `Task.EndInTurn.endTogether` — one after the other is one such order.
-/

namespace ChipAtlas.Task

variable {α β : Type} {t t' t'' : FileTree}

/-! ### Answers -/

/-- What a request for a change can be answered with. -/
inductive Grants (change : TreeChange α) (t : FileTree) : Reply α → FileTree → Prop
  /-- The change is made. -/
  | made {a : α} {t' : FileTree} (h : change t = .ok a t') : Grants change t (.ok a) t'
  /-- The tree cannot make it. -/
  | failed {cause : IoCause} {t' : FileTree} (h : change t = .error cause t') :
      Grants change t (.error cause) t'
  /-- It is refused although the tree could make it. -/
  | refused (cause : IoCause) : Grants change t (.error cause) t

/-- A change that the tree can make is made or refused. -/
theorem Grants.cases_of_ok {change : TreeChange α} {reply : Reply α} {a : α}
    (h : Grants change t reply t') (heq : change t = .ok a t'') :
    (reply = .ok a ∧ t' = t'') ∨ ∃ cause, reply = .error cause ∧ t' = t := by
  cases h with
  | made hmade =>
    obtain ⟨rfl, rfl⟩ := EStateM.Result.ok.inj (hmade.symm.trans heq)
    exact .inl ⟨rfl, rfl⟩
  | failed hfailed => exact nomatch hfailed.symm.trans heq
  | refused cause => exact .inr ⟨cause, rfl, rfl⟩

/-- A change that the tree cannot make is not made. -/
theorem Grants.cases_of_error {change : TreeChange α} {reply : Reply α} {cause : IoCause}
    (h : Grants change t reply t') (heq : change t = .error cause t) :
    ∃ cause, reply = .error cause ∧ t' = t := by
  cases h with
  | made hmade => exact nomatch hmade.symm.trans heq
  | failed hfailed =>
    obtain ⟨rfl, rfl⟩ := EStateM.Result.error.inj (hfailed.symm.trans heq)
    exact ⟨_, rfl, rfl⟩
  | refused cause => exact ⟨cause, rfl, rfl⟩

/-- Whatever the answer is, the tree is as the change leaves it, or as it was. -/
theorem Grants.tree_eq {change : TreeChange α} {reply : Reply α} (h : Grants change t reply t') :
    t' = Stateful.endState (change t) ∨ t' = t := by
  cases h with
  | made hmade => rw [hmade]; exact .inl rfl
  | failed hfailed => rw [hfailed]; exact .inl rfl
  | refused cause => exact .inr rfl

/-- What a question that can fail can be answered with. -/
inductive Answers (a : Except IoCause α) : Reply α → Prop
  | told : Answers a a
  | refused (cause : IoCause) : Answers a (.error cause)

/-- One step of a task: a request, its answer, and the tree after it. -/
inductive Step : Task α → FileTree → Task α → FileTree → Prop
  | isDir {path : String} {next : Bool → Task α} {t : FileTree} :
      Step (isDir path next) t (next (t.isDir path)) t
  | isFile {path : String} {next : Bool → Task α} {t : FileTree} :
      Step (isFile path next) t (next (t.isFile path)) t
  | read {path : String} {next : Reply (List UInt8) → Task α} {t : FileTree}
      {reply : Reply (List UInt8)} (h : Answers (t.read path) reply) :
      Step (read path next) t (next reply) t
  | makeDirs {path : String} {next : Reply Unit → Task α} {t t' : FileTree} {reply : Reply Unit}
      (h : Grants (FileTree.makeDirs path) t reply t') :
      Step (makeDirs path next) t (next reply) t'
  | openTemp {folder : String} {next : Reply TempId → Task α} {t t' : FileTree}
      {reply : Reply TempId} (h : Grants (FileTree.openTemp folder) t reply t') :
      Step (openTemp folder next) t (next reply) t'
  | append {temp : TempId} {bytes : List UInt8} {next : Reply Unit → Task α} {t t' : FileTree}
      {reply : Reply Unit} (h : Grants (FileTree.append temp bytes) t reply t') :
      Step (append temp bytes next) t (next reply) t'
  | publish {temp : TempId} {path : String} {next : Reply Unit → Task α} {t t' : FileTree}
      {reply : Reply Unit} (h : Grants (FileTree.publish temp path) t reply t') :
      Step (publish temp path next) t (next reply) t'
  | discard {temp : TempId} {next : Task α} {t : FileTree} :
      Step (discard temp next) t next (Stateful.endState (FileTree.discard temp t))
  | remove {path : String} {next : Reply Unit → Task α} {t t' : FileTree} {reply : Reply Unit}
      (h : Grants (FileTree.removeFile path) t reply t') :
      Step (remove path next) t (next reply) t'
  | note {event : Event} {next : Task α} {t : FileTree} : Step (note event next) t next t

/-! ### One task -/

/-- A task can end with a result and a tree. -/
inductive Ends : Task α → FileTree → α → FileTree → Prop
  | done {a : α} {t : FileTree} : Ends (done a) t a t
  | step {m m' : Task α} {t t' t'' : FileTree} {a : α} (h : Step m t m' t')
      (rest : Ends m' t' a t'') : Ends m t a t''

/-- What a task reports with its first request. -/
def reported : Task α → List Event
  | note event _ => [event]
  | _ => []

/-- The first request of a task is no removal, or the removal of one of certain paths. -/
def RemovesOnly (locked : Set String) : Task α → Prop
  | remove path _ => path ∈ locked
  | _ => True

/-- A task can end with a result and a tree, and has reported events on the way. Every request may
be refused, but the removal of a path that is not locked: this is made if the tree can make it. -/
inductive EndsReporting (locked : Set String) :
    Task α → FileTree → List Event → α → FileTree → Prop
  | done {a : α} {t : FileTree} : EndsReporting locked (done a) t [] a t
  | step {m m' : Task α} {t t' t'' : FileTree} {events : List Event} {a : α}
      (h : Step m t m' t') (hm : m.RemovesOnly locked)
      (rest : EndsReporting locked m' t' events a t'') :
      EndsReporting locked m t (m.reported ++ events) a t''
  | removes {path : String} {next : Reply Unit → Task α} {t t' t'' : FileTree} {reply : Reply Unit}
      {events : List Event} {a : α} (h : Grants (FileTree.removeFile path) t reply t')
      (hreply : ∀ t₁, FileTree.removeFile path t = .ok () t₁ → reply = .ok ())
      (rest : EndsReporting locked (next reply) t' events a t'') :
      EndsReporting locked (remove path next) t events a t''

/-- Whatever a task ends with, it has reported something on the way, if only nothing. -/
theorem ends_iff_exists_reporting {m : Task α} {a : α} :
    Ends m t a t' ↔ ∃ events, EndsReporting Set.univ m t events a t' := by
  refine ⟨fun h => ?_, ?_⟩
  · induction h with
    | done => exact ⟨[], .done⟩
    | @step m _ _ _ _ _ hstep _ ih =>
      have hm : m.RemovesOnly Set.univ := by cases m <;> trivial
      obtain ⟨events, h⟩ := ih
      exact ⟨_, .step hstep hm h⟩
  · rintro ⟨events, h⟩
    induction h with
    | done => exact .done
    | step hstep _ _ ih => exact .step hstep ih
    | removes hgrants _ _ ih => exact .step (.remove hgrants) ih

/-- A step of a task is a step also when the task is followed by another. -/
theorem Step.bind {m m' : Task α} (h : Step m t m' t') (f : α → Task β) :
    Step (m >>= f) t (m' >>= f) t' := by
  cases h with
  | isDir => exact .isDir
  | isFile => exact .isFile
  | read h => exact .read h
  | makeDirs h => exact .makeDirs h
  | openTemp h => exact .openTemp h
  | append h => exact .append h
  | publish h => exact .publish h
  | discard => exact .discard
  | remove h => exact .remove h
  | note => exact .note

theorem Step.reported_bind {m m' : Task α} (h : Step m t m' t') (f : α → Task β) :
    (m >>= f).reported = m.reported := by
  cases h <;> rfl

theorem Step.removesOnly_bind {m m' : Task α} (h : Step m t m' t') (f : α → Task β)
    (locked : Set String) : (m >>= f).RemovesOnly locked ↔ m.RemovesOnly locked := by
  cases h <;> rfl

/-- A sequence takes its steps in the first task until this is done. -/
theorem Step.cases_bind {m : Task α} {f : α → Task β} {m' : Task β}
    (h : Step (m >>= f) t m' t') :
    (∃ a, m = .done a ∧ Step (f a) t m' t') ∨ ∃ m₁, Step m t m₁ t' ∧ m' = m₁ >>= f := by
  cases m with
  | done a => exact .inl ⟨a, rfl, h⟩
  | isDir path next => cases h; exact .inr ⟨_, .isDir, rfl⟩
  | isFile path next => cases h; exact .inr ⟨_, .isFile, rfl⟩
  | read path next => cases h with | read h => exact .inr ⟨_, .read h, rfl⟩
  | makeDirs path next => cases h with | makeDirs h => exact .inr ⟨_, .makeDirs h, rfl⟩
  | openTemp folder next => cases h with | openTemp h => exact .inr ⟨_, .openTemp h, rfl⟩
  | append temp bytes next => cases h with | append h => exact .inr ⟨_, .append h, rfl⟩
  | publish temp path next => cases h with | publish h => exact .inr ⟨_, .publish h, rfl⟩
  | discard temp next => cases h; exact .inr ⟨_, .discard, rfl⟩
  | remove path next => cases h with | remove h => exact .inr ⟨_, .remove h, rfl⟩
  | note event next => cases h; exact .inr ⟨_, .note, rfl⟩

theorem not_step_done {a : α} {m : Task α} : ¬Step (done a) t m t' := nofun

section Reporting

variable {locked : Set String}

theorem EndsReporting.bind {m : Task α} {f : α → Task β} {a : α} {b : β} {front back : List Event}
    (hm : EndsReporting locked m t front a t') (hf : EndsReporting locked (f a) t' back b t'') :
    EndsReporting locked (m >>= f) t (front ++ back) b t'' := by
  induction hm with
  | done => exact hf
  | step hstep hfirst _ ih =>
    rw [List.append_assoc, ← hstep.reported_bind f]
    exact .step (hstep.bind f) ((hstep.removesOnly_bind f locked).2 hfirst) (ih hf)
  | removes hgrants hreply _ ih => exact .removes hgrants hreply (ih hf)

/-- **Sequences.** A sequence ends as its second task does, from where the first has ended, and has
reported what the first has reported and then the second. -/
theorem endsReporting_bind_iff {m : Task α} {f : α → Task β} {b : β} {events : List Event} :
    EndsReporting locked (m >>= f) t events b t'' ↔ ∃ a t' front back, events = front ++ back ∧
      EndsReporting locked m t front a t' ∧ EndsReporting locked (f a) t' back b t'' := by
  refine ⟨fun h => ?_, ?_⟩
  · generalize hseq : m >>= f = seq at h
    induction h generalizing m with
    | done =>
      cases m with
      | done a =>
        have hfirst : f a = _ := hseq
        exact ⟨a, _, [], [], rfl, .done, hfirst ▸ .done⟩
      | _ => exact nomatch hseq
    | step hstep hfirst hrest ih =>
      subst hseq
      obtain ⟨a, rfl, hstep⟩ | ⟨m₁, hm₁, rfl⟩ := hstep.cases_bind
      · exact ⟨a, _, [], _, rfl, .done, .step hstep hfirst hrest⟩
      · obtain ⟨a, t', front, back, rfl, hm, hf⟩ := ih rfl
        have hfirst := (hm₁.removesOnly_bind f locked).1 hfirst
        refine ⟨a, t', m.reported ++ front, back, ?_, .step hm₁ hfirst hm, hf⟩
        rw [hm₁.reported_bind f, List.append_assoc]
    | removes hgrants hreply hrest ih =>
      cases m with
      | done a =>
        have hfirst : f a = _ := hseq
        exact ⟨a, _, [], _, rfl, .done, hfirst ▸ .removes hgrants hreply hrest⟩
      | remove path next =>
        obtain ⟨rfl, rfl⟩ := Task.remove.inj hseq
        obtain ⟨a, t', front, back, rfl, hm, hf⟩ := ih rfl
        exact ⟨a, t', front, back, rfl, .removes hgrants hreply hm, hf⟩
      | _ => exact nomatch hseq
  · rintro ⟨a, t', front, back, rfl, hm, hf⟩
    exact hm.bind hf

theorem endsReporting_pure_iff {a b : α} {events : List Event} :
    EndsReporting locked (pure a) t events b t' ↔ events = [] ∧ b = a ∧ t' = t := by
  refine ⟨fun h => ?_, ?_⟩
  · cases h with
    | done => exact ⟨rfl, rfl, rfl⟩
    | step hstep _ _ => exact absurd hstep not_step_done
  · rintro ⟨rfl, rfl, rfl⟩
    exact .done

end Reporting

/-- A sequence ends as its second task does, from where the first has ended. -/
theorem ends_bind_iff {m : Task α} {f : α → Task β} {b : β} :
    Ends (m >>= f) t b t'' ↔ ∃ a t', Ends m t a t' ∧ Ends (f a) t' b t'' := by
  simp only [ends_iff_exists_reporting, endsReporting_bind_iff]
  refine ⟨?_, ?_⟩
  · rintro ⟨_, a, t', front, back, -, hm, hf⟩
    exact ⟨a, t', ⟨front, hm⟩, back, hf⟩
  · rintro ⟨a, t', ⟨front, hm⟩, back, hf⟩
    exact ⟨_, a, t', front, back, rfl, hm, hf⟩

theorem Ends.bind {m : Task α} {f : α → Task β} {a : α} {b : β} (hm : Ends m t a t')
    (hf : Ends (f a) t' b t'') : Ends (m >>= f) t b t'' :=
  ends_bind_iff.2 ⟨a, t', hm, hf⟩

theorem ends_pure_iff {a b : α} : Ends (pure a) t b t' ↔ b = a ∧ t' = t := by
  simp only [ends_iff_exists_reporting, endsReporting_pure_iff, exists_eq_left]

namespace EndsReporting

variable {locked : Set String} {a : α} {events : List Event} {next : Reply Unit → Task α}
  {path : String} {id : TempId}

/-- A move comes first. -/
theorem of_publish (h : EndsReporting locked (publish id path next) t events a t'') :
    ∃ reply t', Grants (FileTree.publish id path) t reply t' ∧
      EndsReporting locked (next reply) t' events a t'' := by
  cases h with
  | step hstep _ hrest => cases hstep with | publish hreply => exact ⟨_, _, hreply, hrest⟩

/-- A removal comes first. It is refused only if its path is locked. -/
theorem of_remove (h : EndsReporting locked (remove path next) t events a t'') :
    ∃ reply t', Grants (FileTree.removeFile path) t reply t' ∧
      (path ∈ locked ∨ ∀ t₁, FileTree.removeFile path t = .ok () t₁ → reply = .ok ()) ∧
      EndsReporting locked (next reply) t' events a t'' := by
  cases h with
  | step hstep hfirst hrest =>
    cases hstep with
    | remove hgrants => exact ⟨_, _, hgrants, .inl hfirst, hrest⟩
  | removes hgrants hreply hrest => exact ⟨_, _, hgrants, .inr hreply, hrest⟩

/-- A temporary file is dropped first. -/
theorem of_discard {next : Task α} (h : EndsReporting locked (discard id next) t events a t'') :
    EndsReporting locked next (Stateful.endState (FileTree.discard id t)) events a t'' := by
  cases h with
  | step hstep _ hrest => cases hstep; exact hrest

/-- An event is reported first. -/
theorem of_note {event : Event} {next : Task α}
    (h : EndsReporting locked (note event next) t events a t'') :
    ∃ more, events = event :: more ∧ EndsReporting locked next t more a t'' := by
  cases h with
  | step hstep _ hrest => cases hstep; exact ⟨_, rfl, hrest⟩

end EndsReporting

/-- What the tree does is one answer to a request. -/
theorem grants_change (change : TreeChange α) (d : Disk) :
    Grants change d.tree (Disk.change change d).1 (Disk.change change d).2.tree := by
  rw [Disk.change]
  cases h : change d.tree with
  | ok a t' => exact .made h
  | error cause t' => exact .failed h

theorem tree_change (change : TreeChange α) (d : Disk) :
    (Disk.change change d).2.tree = Stateful.endState (change d.tree) := by
  rw [Disk.change]
  cases change d.tree <;> rfl

/-- Nothing is refused that the tree can do. -/
theorem change_eq_ok {change : TreeChange α} {d : Disk} {a : α}
    (h : change d.tree = .ok a t') : (Disk.change change d).1 = .ok a := by
  rw [Disk.change, h]

theorem log_change (change : TreeChange α) (d : Disk) : (Disk.change change d).2.log = d.log := by
  rw [Disk.change]
  cases change d.tree <;> rfl

/-- **Running** a task is one way for it to end, whatever is locked, and the log has what it has
reported. -/
theorem endsReporting_of_run (locked : Set String) (m : Task α) (d : Disk) :
    ∃ events, (m.run d).2.log.toList = d.log.toList ++ events ∧
      EndsReporting locked m d.tree events (m.run d).1 (m.run d).2.tree := by
  induction m generalizing d with
  | done a => exact ⟨[], (List.append_nil _).symm, .done⟩
  | isDir path next ih =>
    obtain ⟨events, hlog, hends⟩ := ih _ d
    exact ⟨events, hlog, .step .isDir trivial hends⟩
  | isFile path next ih =>
    obtain ⟨events, hlog, hends⟩ := ih _ d
    exact ⟨events, hlog, .step .isFile trivial hends⟩
  | read path next ih =>
    obtain ⟨events, hlog, hends⟩ := ih _ d
    exact ⟨events, hlog, .step (.read .told) trivial hends⟩
  | makeDirs path next ih =>
    obtain ⟨events, hlog, hends⟩ := ih _ (Disk.change _ d).2
    rw [log_change] at hlog
    exact ⟨events, hlog, .step (.makeDirs (grants_change _ d)) trivial hends⟩
  | openTemp folder next ih =>
    obtain ⟨events, hlog, hends⟩ := ih _ (Disk.change _ d).2
    rw [log_change] at hlog
    exact ⟨events, hlog, .step (.openTemp (grants_change _ d)) trivial hends⟩
  | append temp bytes next ih =>
    obtain ⟨events, hlog, hends⟩ := ih _ (Disk.change _ d).2
    rw [log_change] at hlog
    exact ⟨events, hlog, .step (.append (grants_change _ d)) trivial hends⟩
  | publish temp path next ih =>
    obtain ⟨events, hlog, hends⟩ := ih _ (Disk.change _ d).2
    rw [log_change] at hlog
    exact ⟨events, hlog, .step (.publish (grants_change _ d)) trivial hends⟩
  | discard temp next ih =>
    obtain ⟨events, hlog, hends⟩ := ih (Disk.change (FileTree.discard temp) d).2
    rw [log_change] at hlog
    rw [tree_change] at hends
    exact ⟨events, hlog, .step .discard trivial hends⟩
  | remove path next ih =>
    obtain ⟨events, hlog, hends⟩ := ih _ (Disk.change _ d).2
    rw [log_change] at hlog
    exact ⟨events, hlog, .removes (grants_change _ d) (fun _ => change_eq_ok) hends⟩
  | note event next ih =>
    obtain ⟨events, hlog, hends⟩ := ih { d with log := d.log.push event }
    refine ⟨event :: events, ?_, .step .note trivial hends⟩
    rw [Array.toList_push, List.append_assoc] at hlog
    exact hlog

theorem ends_of_run (m : Task α) (d : Disk) : Ends m d.tree (m.run d).1 (m.run d).2.tree := by
  obtain ⟨events, -, hends⟩ := endsReporting_of_run Set.univ m d
  exact ends_iff_exists_reporting.2 ⟨events, hends⟩

/-! ### Several tasks -/

section Several

variable {ι : Type}

/-- Tasks end one after the other, in the order of a list. -/
inductive EndInTurn (tasks : ι → Task α) (results : ι → α) :
    List ι → FileTree → FileTree → Prop
  | nil {t : FileTree} : EndInTurn tasks results [] t t
  | cons {i : ι} {rest : List ι} {t t' t'' : FileTree} (h : Ends (tasks i) t (results i) t')
      (hrest : EndInTurn tasks results rest t' t'') : EndInTurn tasks results (i :: rest) t t''

theorem EndInTurn.congr {tasks tasks' : ι → Task α} {results : ι → α} {order : List ι}
    (h : EndInTurn tasks results order t t') (heq : ∀ i ∈ order, tasks i = tasks' i) :
    EndInTurn tasks' results order t t' := by
  induction h with
  | nil => exact .nil
  | cons hfirst _ ih =>
    obtain ⟨hi, hrest⟩ := List.forall_mem_cons.1 heq
    exact .cons (hi ▸ hfirst) (ih hrest)

variable [DecidableEq ι]

/-- Tasks can end with results and a tree when their steps are interleaved in some order. -/
inductive EndTogether : (ι → Task α) → FileTree → (ι → α) → FileTree → Prop
  | done {results : ι → α} {t : FileTree} : EndTogether (fun i => done (results i)) t results t
  | step {tasks : ι → Task α} {t t' t'' : FileTree} {results : ι → α} (i : ι) {m : Task α}
      (h : Step (tasks i) t m t') (rest : EndTogether (Function.update tasks i m) t' results t'') :
      EndTogether tasks t results t''

/-- The steps of one task can come first. -/
theorem Ends.first {tasks : ι → Task α} {results : ι → α} {i : ι} {a : α}
    (h : Ends (tasks i) t a t')
    (hrest : EndTogether (Function.update tasks i (.done a)) t' results t'') :
    EndTogether tasks t results t'' := by
  generalize hm : tasks i = m at h
  induction h generalizing tasks with
  | done =>
    rw [← hm, Function.update_eq_self] at hrest
    exact hrest
  | step hstep _ ih =>
    refine .step i (hm ▸ hstep) (ih ?_ (Function.update_self ..))
    rw [Function.update_idem]
    exact hrest

/-- **Serial orders.** Tasks that end one after the other are interleaved in one possible order. -/
theorem EndInTurn.endTogether {tasks : ι → Task α} {results : ι → α} {order : List ι}
    (h : EndInTurn tasks results order t t') (hnodup : order.Nodup)
    (hrest : ∀ i, i ∉ order → tasks i = .done (results i)) :
    EndTogether tasks t results t' := by
  induction order generalizing tasks t with
  | nil =>
    cases h
    have htasks : tasks = fun i => .done (results i) := funext fun i => hrest i List.not_mem_nil
    rw [htasks]
    exact .done
  | cons i order ih =>
    obtain ⟨hi, horder⟩ := List.nodup_cons.1 hnodup
    cases h with
    | cons hfirst hlater =>
      refine hfirst.first (ih (hlater.congr fun j hj => ?_) horder fun j hj => ?_)
      · exact (Function.update_of_ne (fun heq : j = i => hi (heq ▸ hj)) _ _).symm
      · by_cases hji : j = i
        · rw [hji, Function.update_self]
        · rw [Function.update_of_ne hji]
          exact hrest j fun hmem => (List.mem_cons.1 hmem).elim hji hj

end Several

end ChipAtlas.Task
