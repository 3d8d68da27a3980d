import ChipAtlas.Proofs.Files.Changes
import ChipAtlas.Proofs.Files.Steps
import Mathlib.Data.Set.Lattice
import Mathlib.Logic.Relation

/-!
# Parties to one file tree

Several tasks may work on one tree. What each of them may do to it is described apart from what it
does: a *party* may make directories at some places, put certain regular files at certain places,
and remove regular files at some places. No party removes or replaces a directory, so a way that is
open stays open; and every party leaves the temporary files of the others alone.

A task is proved to keep to its party, while others do what they may do between any two of its
steps (`Task.Proceeds`). The proof is by the steps of this one task. That all the tasks keep to
their parties, whatever the order of their steps, then follows once and for all.

The numbers of the temporary files that a task has opened are not known before it runs. They are
collected on the way: the files that a step opens have the numbers from the counter before the step
up to the counter after it.

* `Party`, `Party.Changes` — what parties may do to a tree;
* `FileTree.Numbered.of_endTogether` — the counter stays ahead of the temporary files;
* `Task.Proceeds` — a task that keeps to its party and reaches a goal while others work;
* `Task.Proceeds.bind`, `Task.Proceeds.frame` — sequences, and facts that nobody's steps spoil;
* `Task.Proceeds.exists_of_ends` — a task on its own;
* `Task.Proceeds.exists_of_endTogether` — several tasks in any interleaving.
-/

namespace ChipAtlas

open FileTree

/-- What may be done to a tree. -/
structure Party where
  /-- Places where directories may be made. -/
  ways : Set Location
  /-- Regular files that may be put, with their places. -/
  outputs : Set (Location × List UInt8)
  /-- Places where regular files may be removed. -/
  removals : Set Location

namespace Party

variable {p q : Party} {kept kept' : Set TempId} {t t' t'' : FileTree} {l : Location}

/-- What a party may do at a place. -/
inductive Alters (p : Party) (l : Location) : Option Node → Option Node → Prop
  | makes (h : l ∈ p.ways) : Alters p l none (some .dir)
  | puts {before : Option Node} {bytes : List UInt8} (hdir : before ≠ some .dir)
      (h : (l, bytes) ∈ p.outputs) : Alters p l before (some (.file bytes))
  | removes {bytes : List UInt8} (h : l ∈ p.removals) : Alters p l (some (.file bytes)) none

/-- A party that may do at most what another may. -/
instance : LE Party :=
  ⟨fun p q => p.ways ⊆ q.ways ∧ p.outputs ⊆ q.outputs ∧ p.removals ⊆ q.removals⟩

theorem le_refl (p : Party) : p ≤ p := ⟨subset_rfl, subset_rfl, subset_rfl⟩

/-- A party that only makes directories. -/
def maker (ways : Set Location) : Party := ⟨ways, ∅, ∅⟩

/-- Nobody else is at work. -/
def nobody : Party := maker ∅

theorem maker_le (p : Party) : maker p.ways ≤ p :=
  ⟨subset_rfl, Set.empty_subset _, Set.empty_subset _⟩

theorem Alters.mono {before after : Option Node} (h : p.Alters l before after) (hle : p ≤ q) :
    q.Alters l before after := by
  cases h with
  | makes h => exact .makes (hle.1 h)
  | puts hdir h => exact .puts hdir (hle.2.1 h)
  | removes h => exact .removes (hle.2.2 h)

/-- What a party may do at a place in several steps. -/
abbrev Leads (p : Party) (l : Location) : Option Node → Option Node → Prop :=
  Relation.ReflTransGen (p.Alters l)

/-- Directories stay. -/
theorem Leads.eq_dir {after : Option Node} (h : p.Leads l (some .dir) after) :
    after = some .dir := by
  induction h with
  | refl => rfl
  | tail _ hlast ih =>
    subst ih
    cases hlast with
    | puts hdir _ => exact absurd rfl hdir

/-- A regular file stays where a party removes nothing and puts nothing else. -/
theorem Leads.eq_file {bytes : List UInt8} {after : Option Node}
    (h : p.Leads l (some (.file bytes)) after) (hremoves : l ∉ p.removals)
    (hputs : ∀ put, (l, put) ∈ p.outputs → put = bytes) : after = some (.file bytes) := by
  induction h with
  | refl => rfl
  | tail _ hlast ih =>
    subst ih
    cases hlast with
    | puts _ hput => rw [hputs _ hput]
    | removes hremove => exact absurd hremove hremoves

/-- A regular file that a party leaves at a place was there, or the party has put it there. -/
theorem Leads.file {before : Option Node} {bytes : List UInt8}
    (h : p.Leads l before (some (.file bytes))) :
    before = some (.file bytes) ∨ (l, bytes) ∈ p.outputs := by
  rcases h.cases_tail with heq | ⟨_, -, hlast⟩
  · exact .inl heq.symm
  · cases hlast with
    | puts _ hput => exact .inr hput

/-- Where a party may do nothing, everything stays as it is. -/
theorem Leads.eq_self {before after : Option Node} (h : p.Leads l before after)
    (hways : l ∉ p.ways) (hputs : ∀ bytes, (l, bytes) ∉ p.outputs) (hremoves : l ∉ p.removals) :
    after = before := by
  rcases h.cases_tail with heq | ⟨_, -, hlast⟩
  · exact heq
  · cases hlast with
    | makes hl => exact absurd hl hways
    | puts _ hput => exact absurd hput (hputs _)
    | removes hremove => exact absurd hremove hremoves

/-- A party that only makes directories makes them where nothing lies. -/
theorem Leads.of_maker {ways : Set Location} {before after : Option Node}
    (h : (maker ways).Leads l before after) :
    after = before ∨ before = none ∧ after = some .dir ∧ l ∈ ways := by
  induction h with
  | refl => exact .inl rfl
  | tail _ hlast ih =>
    cases hlast with
    | makes hl =>
      rcases ih with heq | ⟨-, hdir, -⟩
      · exact .inr ⟨heq.symm, rfl, hl⟩
      · exact nomatch hdir
    | puts _ hput => exact absurd hput (Set.notMem_empty _)
    | removes hremove => exact absurd hremove (Set.notMem_empty _)

theorem Leads.mono {before after : Option Node} (h : p.Leads l before after) (hle : p ≤ q) :
    q.Leads l before after := by
  induction h with
  | refl => exact .refl
  | tail _ hlast ih => exact ih.tail (hlast.mono hle)

/-- What a party may have done to a tree, where the temporary files with certain numbers stay as
they are. -/
structure Changes (p : Party) (kept : Set TempId) (t t' : FileTree) : Prop where
  nodes : ∀ l, p.Leads l (t.node? l) (t'.node? l)
  temps : ∀ id ∈ kept, t'.temps.get? id = t.temps.get? id
  nextTemp : t.nextTemp ≤ t'.nextTemp

namespace Changes

theorem refl (p : Party) (kept : Set TempId) (t : FileTree) : p.Changes kept t t :=
  ⟨fun _ => .refl, fun _ _ => rfl, Nat.le_refl _⟩

theorem trans (h : p.Changes kept t t') (h' : p.Changes kept t' t'') : p.Changes kept t t'' :=
  ⟨fun l => (h.nodes l).trans (h'.nodes l),
    fun id hid => (h'.temps id hid).trans (h.temps id hid), h.nextTemp.trans h'.nextTemp⟩

theorem mono (h : p.Changes kept t t') (hle : p ≤ q) (hkept : kept' ⊆ kept) :
    q.Changes kept' t t' :=
  ⟨fun l => (h.nodes l).mono hle, fun id hid => h.temps id (hkept hid), h.nextTemp⟩

theorem keepsDirs (h : p.Changes kept t t') : t.KeepsDirs t' := by
  intro l hl
  have hnode := h.nodes l
  rw [hl] at hnode
  exact hnode.eq_dir

/-- Nothing but temporary files has changed. -/
theorem of_nodes (hnodes : t'.nodes = t.nodes)
    (htemps : ∀ id ∈ kept, t'.temps.get? id = t.temps.get? id)
    (hnext : t.nextTemp ≤ t'.nextTemp) : p.Changes kept t t' :=
  ⟨fun l => by rw [node?, node?, hnodes], htemps, hnext⟩

/-- One place has been altered. -/
theorem of_alters (hl : p.Alters l (t.node? l) (t'.node? l))
    (hnodes : ∀ m, m ≠ l → t'.node? m = t.node? m)
    (htemps : ∀ id ∈ kept, t'.temps.get? id = t.temps.get? id)
    (hnext : t.nextTemp ≤ t'.nextTemp) : p.Changes kept t t' := by
  refine ⟨fun m => ?_, htemps, hnext⟩
  by_cases hm : m = l
  · rw [hm]
    exact .single hl
  · rw [hnodes m hm]

end Changes

/-- What the parties of a set may do. -/
def among {ι : Type} (parties : ι → Party) (s : Set ι) : Party where
  ways := {l | ∃ i ∈ s, l ∈ (parties i).ways}
  outputs := {output | ∃ i ∈ s, output ∈ (parties i).outputs}
  removals := {l | ∃ i ∈ s, l ∈ (parties i).removals}

theorem le_among {ι : Type} {parties : ι → Party} {s : Set ι} {i : ι} (h : i ∈ s) :
    parties i ≤ among parties s :=
  ⟨fun _ hl => ⟨i, h, hl⟩, fun _ hl => ⟨i, h, hl⟩, fun _ hl => ⟨i, h, hl⟩⟩

end Party

/-- The numbers of the temporary files that are opened between two trees. -/
def FileTree.opened (t t' : FileTree) : Set TempId := {id | t.nextTemp ≤ id ∧ id < t'.nextTemp}

theorem FileTree.opened_eq_empty {t t' : FileTree} (h : t'.nextTemp = t.nextTemp) :
    t.opened t' = ∅ :=
  Set.eq_empty_of_forall_notMem fun _ ⟨hle, hlt⟩ => absurd (h ▸ hlt) (Nat.not_lt.2 hle)

/-- No temporary file has a number that is still to be given. -/
def FileTree.Numbered (t : FileTree) : Prop := ∀ id, t.nextTemp ≤ id → t.temps.get? id = none

namespace FileTree.Numbered

variable {t t' : FileTree}

theorem of_temps (h : t.Numbered) (htemps : t'.temps = t.temps) (hnext : t'.nextTemp = t.nextTemp) :
    t'.Numbered := by
  intro id hid
  rw [htemps]
  exact h id (hnext ▸ hid)

theorem eraseTemp (h : t.Numbered) (id : TempId) : (t.eraseTemp id).Numbered := by
  intro other hother
  refine (OrderedMap.get?_erase t.temps id other).trans ?_
  split
  next => rfl
  next => exact h other hother

theorem insertTemp (h : t.Numbered) {id : TempId} {temp : TempFile}
    (htemps : t'.temps = t.temps.insert id temp) (hid : id < t'.nextTemp)
    (hnext : t.nextTemp ≤ t'.nextTemp) : t'.Numbered := by
  intro other hother
  have hne : id ≠ other := (hid.trans_le hother).ne
  rw [htemps, OrderedMap.get?_insert, if_neg hne]
  exact h other (hnext.trans hother)

theorem makeDirs (h : t.Numbered) (path : String) :
    (Stateful.endState (FileTree.makeDirs path t)).Numbered :=
  h.of_temps (makeDirs_spec path t).addsDirs.temps (makeDirs_spec path t).addsDirs.nextTemp

theorem openTemp (h : t.Numbered) (folder : String) :
    (Stateful.endState (FileTree.openTemp folder t)).Numbered := by
  obtain ⟨-, heq⟩ | ⟨cause, heq⟩ := openTemp_cases folder t
  · rw [heq]
    exact h.insertTemp rfl (Nat.lt_succ_self _) (Nat.le_succ _)
  · rwa [heq]

theorem append (h : t.Numbered) (id : TempId) (bytes : List UInt8) :
    (Stateful.endState (FileTree.append id bytes t)).Numbered := by
  cases htemp : t.temps.get? id with
  | none => rwa [append_of_none htemp]
  | some temp =>
    have hid : id < t.nextTemp := Nat.lt_of_not_le fun hle => nomatch htemp.symm.trans (h id hle)
    rw [append_of_get? htemp]
    exact h.insertTemp rfl hid (Nat.le_refl _)

theorem publish (h : t.Numbered) (id : TempId) (path : String) :
    (Stateful.endState (FileTree.publish id path t)).Numbered := by
  obtain ⟨temp, l, -, -, -, -, -, heq⟩ | ⟨cause, heq⟩ := publish_cases id path t
  · rw [heq]
    exact (h.eraseTemp id).of_temps rfl rfl
  · rwa [heq]

theorem discard (h : t.Numbered) (id : TempId) :
    (Stateful.endState (FileTree.discard id t)).Numbered := by
  obtain ⟨temp, -, -, heq⟩ | ⟨cause, heq⟩ := discard_cases id t
  · rw [heq]
    exact h.eraseTemp id
  · rwa [heq]

theorem removeFile (h : t.Numbered) (path : String) :
    (Stateful.endState (FileTree.removeFile path t)).Numbered := by
  obtain ⟨l, bytes, -, -, heq⟩ | ⟨cause, heq⟩ := removeFile_cases path t
  · rw [heq]
    exact h.of_temps rfl rfl
  · rwa [heq]

theorem of_grants {α : Type} {change : TreeChange α} {reply : Reply α} (h : t.Numbered)
    (hchange : (Stateful.endState (change t)).Numbered) (hreply : Task.Grants change t reply t') :
    t'.Numbered := by
  obtain rfl | rfl := hreply.tree_eq
  · exact hchange
  · exact h

/-- **One step** of a task keeps the temporary files numbered. -/
theorem step {α : Type} {m m' : Task α} (h : t.Numbered) (hstep : Task.Step m t m' t') :
    t'.Numbered := by
  cases hstep with
  | isDir => exact h
  | isFile => exact h
  | read _ => exact h
  | note => exact h
  | makeDirs hreply => exact h.of_grants (h.makeDirs _) hreply
  | openTemp hreply => exact h.of_grants (h.openTemp _) hreply
  | append hreply => exact h.of_grants (h.append _ _) hreply
  | publish hreply => exact h.of_grants (h.publish _ _) hreply
  | discard => exact h.discard _
  | remove hreply => exact h.of_grants (h.removeFile _) hreply

/-- A tree without temporary files is one to begin with. -/
theorem of_temps_empty (h : t.temps = ∅) : t.Numbered := by
  intro id _
  rw [h, OrderedMap.get?_empty]

/-- A task that ends, with whatever result, leaves the temporary files numbered. -/
theorem of_ends {α : Type} {m : Task α} {a : α} (h : t.Numbered) (hends : Task.Ends m t a t') :
    t'.Numbered := by
  induction hends with
  | done => exact h
  | step hstep _ ih => exact ih (h.step hstep)

/-- **Whole runs.** However the steps of tasks are interleaved, they leave the temporary files
numbered. So the numbering, which the results on jobs start from, is there in every tree that tasks
have led to from one without temporary files. -/
theorem of_endTogether {α ι : Type} [DecidableEq ι] {tasks : ι → Task α} {results : ι → α}
    (h : t.Numbered) (hends : Task.EndTogether tasks t results t') : t'.Numbered := by
  induction hends with
  | done => exact h
  | step i hstep _ ih => exact ih (h.step hstep)

end FileTree.Numbered

namespace Task

variable {α β : Type} {me env : Party} {own : Set TempId} {t t' t'' : FileTree}

/-- Nobody's steps spoil a fact. -/
structure Kept (me env : Party) (R : FileTree → Prop) : Prop where
  others : ∀ t t', env.Changes ∅ t t' → R t → R t'
  mine : ∀ t t', me.Changes ∅ t t' → R t → R t'

theorem Kept.and {R Q : FileTree → Prop} (hR : Kept me env R) (hQ : Kept me env Q) :
    Kept me env fun t => R t ∧ Q t :=
  ⟨fun t t' h => And.imp (hR.others t t' h) (hQ.others t t' h),
    fun t t' h => And.imp (hR.mine t t' h) (hQ.mine t t' h)⟩

/-- Ways that are open stay open. -/
theorem kept_opens (S : String → Prop) :
    Kept me env fun t => ∀ path, S path → t.Open [] (Path.pieces path) :=
  ⟨fun _ _ h hopens path hpath => (hopens path hpath).mono h.keepsDirs,
    fun _ _ h hopens path hpath => (hopens path hpath).mono h.keepsDirs⟩

/-- What is to be true at an end: of the result, the numbers of the temporary files that the task
has opened, and the tree. -/
abbrev Goal (α : Type) := α → Set TempId → FileTree → Prop

/-- A task keeps to its party while others, who leave its temporary files alone, keep to theirs, and
whenever it is done the goal is reached and stays so. -/
inductive Proceeds (me env : Party) (goal : Goal α) : Task α → Set TempId → FileTree → Prop
  | intro {m : Task α} {own : Set TempId} {t : FileTree}
      (ends : ∀ a, m = .done a → ∀ t', env.Changes own t t' → goal a own t')
      (keeps : ∀ t₁, env.Changes own t t₁ → ∀ m' t₂, Step m t₁ m' t₂ →
        me.Changes (own ∪ t₁.opened t₂)ᶜ t₁ t₂)
      (goes : ∀ t₁, env.Changes own t t₁ → ∀ m' t₂, Step m t₁ m' t₂ →
        Proceeds me env goal m' (own ∪ t₁.opened t₂) t₂) : Proceeds me env goal m own t

namespace Proceeds

variable {goal : Goal α}

theorem ends {m : Task α} (h : Proceeds me env goal m own t) {a : α} (hm : m = .done a)
    (henv : env.Changes own t t') : goal a own t' := by
  cases h with
  | intro hends _ _ => exact hends a hm t' henv

theorem keeps {m m' : Task α} (h : Proceeds me env goal m own t) (henv : env.Changes own t t')
    (hstep : Step m t' m' t'') : me.Changes (own ∪ t'.opened t'')ᶜ t' t'' := by
  cases h with
  | intro _ hkeeps _ => exact hkeeps t' henv m' t'' hstep

theorem goes {m m' : Task α} (h : Proceeds me env goal m own t) (henv : env.Changes own t t')
    (hstep : Step m t' m' t'') : Proceeds me env goal m' (own ∪ t'.opened t'') t'' := by
  cases h with
  | intro _ _ hgoes => exact hgoes t' henv m' t'' hstep

/-- What the others do first changes nothing. -/
theorem after {m : Task α} (h : Proceeds me env goal m own t) (henv : env.Changes own t t') :
    Proceeds me env goal m own t' :=
  .intro (fun _ hm _ hlater => h.ends hm (henv.trans hlater))
    (fun _ hlater _ _ hstep => h.keeps (henv.trans hlater) hstep)
    fun _ hlater _ _ hstep => h.goes (henv.trans hlater) hstep

theorem done {a : α} (h : ∀ t', env.Changes own t t' → goal a own t') :
    Proceeds me env goal (.done a) own t := by
  refine .intro (fun b hb => ?_) (fun _ _ _ _ hstep => ?_) fun _ _ _ _ hstep => ?_
  · cases hb
    exact h
  · exact absurd hstep not_step_done
  · exact absurd hstep not_step_done

/-- A task that starts with a request. -/
theorem of_steps {m : Task α} (hm : ∀ a, m ≠ .done a)
    (h : ∀ t₁, env.Changes own t t₁ → ∀ m' t₂, Step m t₁ m' t₂ →
      me.Changes (own ∪ t₁.opened t₂)ᶜ t₁ t₂ ∧
        Proceeds me env goal m' (own ∪ t₁.opened t₂) t₂) : Proceeds me env goal m own t :=
  .intro (fun a ha => absurd ha (hm a)) (fun t₁ henv m' t₂ hstep => (h t₁ henv m' t₂ hstep).1)
    fun t₁ henv m' t₂ hstep => (h t₁ henv m' t₂ hstep).2

/-- **Sequences.** -/
theorem bind {m : Task α} {f : α → Task β} {mid : Goal α} {goal : Goal β}
    (hm : Proceeds me env mid m own t)
    (hf : ∀ a own t, mid a own t → Proceeds me env goal (f a) own t) :
    Proceeds me env goal (m >>= f) own t := by
  induction hm with
  | @intro m own t hends hkeeps hgoes ih =>
    by_cases hdone : ∃ a, m = .done a
    · obtain ⟨a, rfl⟩ := hdone
      exact hf a own t (hends a rfl t (.refl env own t))
    · refine of_steps (fun b hb => ?_) fun t₁ henv m' t₂ hstep => ?_
      · cases m with
        | done a => exact hdone ⟨a, rfl⟩
        | _ => exact nomatch hb
      · obtain ⟨a, rfl, -⟩ | ⟨m₁, hm₁, rfl⟩ := hstep.cases_bind
        · exact absurd ⟨a, rfl⟩ hdone
        · exact ⟨hkeeps t₁ henv m₁ t₂ hm₁, ih t₁ henv m₁ t₂ hm₁⟩

theorem mono {m : Task α} {goal' : Goal α} (h : Proceeds me env goal m own t)
    (hgoal : ∀ a own t, goal a own t → goal' a own t) : Proceeds me env goal' m own t := by
  induction h with
  | intro hends hkeeps _ ih =>
    exact .intro (fun a ha t' henv => hgoal a _ t' (hends a ha t' henv)) hkeeps ih

/-- What the others do last does not spoil the goal. -/
theorem stays {m : Task α} (h : Proceeds me env goal m own t) :
    Proceeds me env (fun a own t => ∀ t', env.Changes own t t' → goal a own t') m own t := by
  induction h with
  | intro hends hkeeps _ ih =>
    exact .intro (fun a ha t' henv t'' hlater => hends a ha t'' (henv.trans hlater)) hkeeps ih

theorem map {m : Task α} {f : α → β} {goal : Goal β}
    (h : Proceeds me env (fun a => goal (f a)) m own t) : Proceeds me env goal (f <$> m) own t :=
  h.stays.bind fun _ _ _ hgoal => .done hgoal

/-- A task that keeps to a party keeps to one that may do more. -/
theorem weaken {m : Task α} {me' : Party} (h : Proceeds me env goal m own t) (hle : me ≤ me') :
    Proceeds me' env goal m own t := by
  induction h with
  | intro hends hkeeps _ ih =>
    refine .intro hends (fun t₁ henv m' t₂ hstep => ?_) ih
    exact (hkeeps t₁ henv m' t₂ hstep).mono hle subset_rfl

/-- **Frames.** What nobody's steps spoil is true in the end if it is true at the start. -/
theorem frame {m : Task α} {R : FileTree → Prop} (h : Proceeds me env goal m own t)
    (hkept : Kept me env R) (hR : R t) :
    Proceeds me env (fun a own t => goal a own t ∧ R t) m own t := by
  induction h with
  | intro hends hkeeps _ ih =>
    have hothers {own : Set TempId} {t t' : FileTree} (h : env.Changes own t t') : R t → R t' :=
      hkept.others t t' (h.mono env.le_refl (Set.empty_subset own))
    refine .intro (fun a ha t' h => ⟨hends a ha t' h, hothers h hR⟩) hkeeps ?_
    intro t₁ h m' t₂ hstep
    have hmine := (hkeeps t₁ h m' t₂ hstep).mono me.le_refl (Set.empty_subset _)
    exact ih t₁ h m' t₂ hstep (hkept.mine t₁ t₂ hmine (hothers h hR))

/-- **One task.** A task on its own reaches the goal of its proof, and has changed the tree as its
party may. -/
theorem exists_of_ends {m : Task α} (h : Proceeds me env goal m own t) {a : α}
    (hends : Ends m t a t') :
    ∃ own', own ⊆ own' ∧ (∀ id ∈ own', id ∈ own ∨ t.nextTemp ≤ id) ∧ goal a own' t' ∧
      me.Changes own'ᶜ t t' := by
  induction hends generalizing own with
  | done => exact ⟨own, subset_rfl, fun _ => .inl, h.ends rfl (.refl _ _ _), .refl _ _ _⟩
  | step hstep _ ih =>
    have hkeeps := h.keeps (.refl _ _ _) hstep
    obtain ⟨own', hsub, hnew, hgoal, hchanges⟩ := ih (h.goes (.refl _ _ _) hstep)
    refine ⟨own', fun id hid => hsub (.inl hid), fun id hid => ?_, hgoal, ?_⟩
    · rcases hnew id hid with (hid | hid) | hid
      · exact .inl hid
      · exact .inr hid.1
      · exact .inr (hkeeps.nextTemp.trans hid)
    · exact (hkeeps.mono me.le_refl (Set.compl_subset_compl.2 hsub)).trans hchanges

end Proceeds

/-! ### Requests -/

section Requests

variable {goal : Goal α} {path : String} {id : TempId}

/-- A step that opens nothing. -/
theorem Proceeds.of_quiet_step {m' : Task α} (hnext : t'.nextTemp = t.nextTemp)
    (hkeeps : me.Changes ownᶜ t t') (hgoes : Proceeds me env goal m' own t') :
    me.Changes (own ∪ t.opened t')ᶜ t t' ∧ Proceeds me env goal m' (own ∪ t.opened t') t' := by
  rw [opened_eq_empty hnext, Set.union_empty]
  exact ⟨hkeeps, hgoes⟩

/-- A step that asks. -/
theorem Proceeds.of_question {m' : Task α} (h : Proceeds me env goal m' own t) :
    me.Changes (own ∪ t.opened t)ᶜ t t ∧ Proceeds me env goal m' (own ∪ t.opened t) t :=
  of_quiet_step rfl (.refl _ _ _) h

theorem Proceeds.note {event : Event} {next : Task α} (h : Proceeds me env goal next own t) :
    Proceeds me env goal (.note event next) own t := by
  refine of_steps nofun fun t₁ henv m' t₂ hstep => ?_
  cases hstep
  exact of_question (h.after henv)

theorem Proceeds.isDir {next : Bool → Task α}
    (h : ∀ t₁, env.Changes own t t₁ → Proceeds me env goal (next (t₁.isDir path)) own t₁) :
    Proceeds me env goal (.isDir path next) own t := by
  refine of_steps nofun fun t₁ henv m' t₂ hstep => ?_
  cases hstep
  exact of_question (h t₁ henv)

theorem Proceeds.read {next : Reply (List UInt8) → Task α}
    (hfails : ∀ t₁ cause, env.Changes own t t₁ →
      Proceeds me env goal (next (.error cause)) own t₁)
    (hreads : ∀ t₁ bytes, env.Changes own t t₁ → t₁.read path = .ok bytes →
      Proceeds me env goal (next (.ok bytes)) own t₁) :
    Proceeds me env goal (.read path next) own t := by
  refine of_steps nofun fun t₁ henv m' t₂ hstep => ?_
  cases hstep with
  | read hreply =>
    refine of_question ?_
    cases hreply with
    | refused cause => exact hfails t₁ cause henv
    | told =>
      cases hread : t₁.read path with
      | error cause => exact hfails t₁ cause henv
      | ok bytes => exact hreads t₁ bytes henv hread

theorem changes_of_addsDirs {places : List Location} {kept : Set TempId}
    (h : AddsDirs places t t') (hways : ∀ l ∈ places, l ∈ me.ways) : me.Changes kept t t' := by
  refine ⟨fun l => ?_, fun id _ => by rw [h.temps], h.nextTemp.ge⟩
  rcases h.nodes l with heq | ⟨hnone, hdir, hmem⟩
  · rw [heq]
  · rw [hnone, hdir]
    exact .single (.makes (hways l hmem))

theorem Proceeds.makeDirs {next : Reply Unit → Task α} (hways : ∀ l ∈ Path.way path, l ∈ me.ways)
    (hfails : ∀ t₁ t₂ cause, env.Changes own t t₁ → AddsDirs (Path.way path) t₁ t₂ →
      Proceeds me env goal (next (.error cause)) own t₂)
    (hmakes : ∀ t₁ t₂, env.Changes own t t₁ → AddsDirs (Path.way path) t₁ t₂ →
      t₂.Open [] (Path.pieces path) → Proceeds me env goal (next (.ok ())) own t₂) :
    Proceeds me env goal (.makeDirs path next) own t := by
  refine of_steps nofun fun t₁ henv m' t₂ hstep => ?_
  cases hstep with
  | makeDirs hreply =>
    have hspec := makeDirs_spec path t₁
    cases hreply with
    | made heq =>
      rw [heq] at hspec
      exact of_quiet_step hspec.1.nextTemp (changes_of_addsDirs hspec.1 hways)
        (hmakes t₁ t₂ henv hspec.1 hspec.2)
    | failed heq =>
      rw [heq] at hspec
      exact of_quiet_step hspec.nextTemp (changes_of_addsDirs hspec hways)
        (hfails t₁ t₂ _ henv hspec)
    | refused cause => exact of_question (hfails t₁ t₁ cause henv (.refl _ _))

theorem opened_withNewTemp (t : FileTree) (temp : TempFile) :
    t.opened (t.withNewTemp temp) = {t.nextTemp} := by
  ext id
  exact ⟨fun ⟨hle, hlt⟩ => Nat.le_antisymm (Nat.le_of_lt_succ hlt) hle,
    fun heq => heq ▸ ⟨Nat.le_refl _, Nat.lt_succ_self _⟩⟩

theorem Proceeds.openTemp {folder : String} {next : Reply TempId → Task α}
    (hfails : ∀ t₁ cause, env.Changes own t t₁ →
      Proceeds me env goal (next (.error cause)) own t₁)
    (hopens : ∀ t₁, env.Changes own t t₁ → t₁.Open [] (Path.pieces folder) →
      Proceeds me env goal (next (.ok t₁.nextTemp)) (own ∪ {t₁.nextTemp})
        (t₁.withNewTemp { folder := Path.place folder, way := folder })) :
    Proceeds me env goal (.openTemp folder next) own t := by
  refine of_steps nofun fun t₁ henv m' t₂ hstep => ?_
  cases hstep with
  | openTemp hreply =>
    obtain ⟨hopen, heq⟩ | ⟨cause, heq⟩ := openTemp_cases folder t₁
    · obtain ⟨rfl, rfl⟩ | ⟨cause, rfl, rfl⟩ := hreply.cases_of_ok heq
      · rw [opened_withNewTemp]
        refine ⟨.of_nodes rfl (fun id hid => ?_) (Nat.le_succ _), hopens t₁ henv hopen⟩
        exact (OrderedMap.get?_insert ..).trans (if_neg fun heq => hid (.inr heq.symm))
      · exact of_question (hfails _ cause henv)
    · obtain ⟨cause, rfl, rfl⟩ := hreply.cases_of_error heq
      exact of_question (hfails _ cause henv)

/-- Of the temporary files, only one of its own has changed. -/
theorem changes_of_temp (hid : id ∈ own) (hnodes : t'.nodes = t.nodes)
    (hnext : t'.nextTemp = t.nextTemp)
    (htemps : ∀ other, id ≠ other → t'.temps.get? other = t.temps.get? other) :
    me.Changes ownᶜ t t' :=
  .of_nodes hnodes (fun other hother => htemps other fun heq => hother (heq ▸ hid)) hnext.ge

theorem Proceeds.append {bytes : List UInt8} {next : Reply Unit → Task α} (hid : id ∈ own)
    (hfails : ∀ t₁ cause, env.Changes own t t₁ →
      Proceeds me env goal (next (.error cause)) own t₁)
    (happends : ∀ t₁ temp, env.Changes own t t₁ → t₁.temps.get? id = some temp →
      Proceeds me env goal (next (.ok ())) own
        (t₁.withTemp id { temp with bytes := temp.bytes ++ bytes })) :
    Proceeds me env goal (.append id bytes next) own t := by
  refine of_steps nofun fun t₁ henv m' t₂ hstep => ?_
  cases hstep with
  | append hreply =>
    cases htemp : t₁.temps.get? id with
    | none =>
      obtain ⟨cause, rfl, rfl⟩ := hreply.cases_of_error (append_of_none htemp bytes)
      exact of_question (hfails _ cause henv)
    | some temp =>
      obtain ⟨rfl, rfl⟩ | ⟨cause, rfl, rfl⟩ := hreply.cases_of_ok (append_of_get? htemp bytes)
      · refine of_quiet_step rfl (changes_of_temp hid rfl rfl fun other hother => ?_)
          (happends t₁ temp henv htemp)
        exact (OrderedMap.get?_insert ..).trans (if_neg hother)
      · exact of_question (hfails _ cause henv)

theorem Proceeds.discard {next : Task α} (hid : id ∈ own)
    (h : ∀ t₁, env.Changes own t t₁ →
      Proceeds me env goal next own (Stateful.endState (FileTree.discard id t₁))) :
    Proceeds me env goal (.discard id next) own t := by
  refine of_steps nofun fun t₁ henv m' t₂ hstep => ?_
  cases hstep with
  | discard =>
    have hgoes := h t₁ henv
    obtain ⟨temp, -, -, heq⟩ | ⟨cause, heq⟩ := discard_cases id t₁
    · rw [heq] at hgoes ⊢
      refine of_quiet_step rfl (changes_of_temp hid rfl rfl fun other hother => ?_) hgoes
      exact (OrderedMap.get?_erase ..).trans (if_neg hother)
    · rw [heq] at hgoes ⊢
      exact of_question hgoes

theorem Proceeds.publish {next : Reply Unit → Task α} (hid : id ∈ own)
    (hfails : ∀ t₁ cause, env.Changes own t t₁ →
      Proceeds me env goal (next (.error cause)) own t₁)
    (hmoves : ∀ t₁ temp l, env.Changes own t t₁ → t₁.temps.get? id = some temp →
      t₁.EndsAt path l → Path.endsWithSlash path = false → t₁.node? l ≠ some .dir →
      (l, temp.bytes) ∈ me.outputs ∧ Proceeds me env goal (next (.ok ())) own
        ((t₁.eraseTemp id).put l (.file temp.bytes))) :
    Proceeds me env goal (.publish id path next) own t := by
  refine of_steps nofun fun t₁ henv m' t₂ hstep => ?_
  cases hstep with
  | publish hreply =>
    obtain ⟨temp, l, htemp, -, hends, hslash, hnotDir, heq⟩ | ⟨cause, heq⟩ :=
      publish_cases id path t₁
    · obtain ⟨rfl, rfl⟩ | ⟨cause, rfl, rfl⟩ := hreply.cases_of_ok heq
      · obtain ⟨houtput, hgoes⟩ := hmoves t₁ temp l henv htemp hends hslash hnotDir
        refine of_quiet_step rfl (.of_alters (l := l) ?_ (fun m hm => ?_) (fun other hother => ?_)
          (Nat.le_refl _)) hgoes
        · rw [node?_put hends.ne_nil, if_pos rfl]
          exact .puts hnotDir houtput
        · exact (node?_put hends.ne_nil ..).trans (if_neg (Ne.symm hm))
        · refine (OrderedMap.get?_erase ..).trans (if_neg fun heq : id = other => ?_)
          exact hother (heq ▸ hid)
      · exact of_question (hfails _ cause henv)
    · obtain ⟨cause, rfl, rfl⟩ := hreply.cases_of_error heq
      exact of_question (hfails _ cause henv)

theorem Proceeds.remove {next : Reply Unit → Task α} (hplace : Path.place path ∈ me.removals)
    (h : ∀ reply t₁, Proceeds me env goal (next reply) own t₁) :
    Proceeds me env goal (.remove path next) own t := by
  refine of_steps nofun fun t₁ henv m' t₂ hstep => ?_
  cases hstep with
  | remove hreply =>
    obtain ⟨l, bytes, hends, hnode, heq⟩ | ⟨cause, heq⟩ := removeFile_cases path t₁
    · obtain ⟨rfl, rfl⟩ | ⟨cause, rfl, rfl⟩ := hreply.cases_of_ok heq
      · refine of_quiet_step rfl (.of_alters (l := l) ?_ (fun m hm => ?_) (fun _ _ => rfl)
          (Nat.le_refl _)) (h _ _)
        · rw [node?_without hends.ne_nil, if_pos rfl, hnode]
          exact .removes (hends.eq_place ▸ hplace)
        · exact (node?_without hends.ne_nil _).trans (if_neg (Ne.symm hm))
      · exact of_question (h _ _)
    · obtain ⟨cause, rfl, rfl⟩ := hreply.cases_of_error heq
      exact of_question (h _ _)

end Requests

/-! ### Several tasks -/

section Several

variable {ι : Type} {tasks : ι → Task α} {results : ι → α} {parties : ι → Party}
  {goals : ι → Goal α} {owns : ι → Set TempId}

/-- Tasks own different temporary files, and such only as have been opened. -/
structure Apart (owns : ι → Set TempId) (t : FileTree) : Prop where
  below : ∀ i, ∀ id ∈ owns i, id < t.nextTemp
  disjoint : ∀ i j, i ≠ j → ∀ id ∈ owns i, id ∉ owns j

/-- What one task does is what the others may do, for everybody else. -/
theorem Apart.changes_others (h : Apart owns t) {i j : ι}
    (hchanges : (parties i).Changes (owns i ∪ t.opened t')ᶜ t t') (hj : j ≠ i) :
    (Party.among parties {j}ᶜ).Changes (owns j) t t' := by
  refine hchanges.mono (Party.le_among fun heq => hj heq.symm) fun id hid => ?_
  rintro (hmem | hmem)
  · exact h.disjoint j i hj id hid hmem
  · exact absurd (h.below j id hid) (Nat.not_lt.2 hmem.1)

variable [DecidableEq ι]

/-- What one task opens belongs to nobody else. -/
theorem Apart.step (h : Apart owns t) {i : ι} (hnext : t.nextTemp ≤ t'.nextTemp) :
    Apart (Function.update owns i (owns i ∪ t.opened t')) t' := by
  refine ⟨fun j id hid => ?_, fun j k hjk id hid => ?_⟩
  · by_cases hj : j = i
    · subst hj
      rw [Function.update_self] at hid
      exact hid.elim (fun hid => (h.below j id hid).trans_le hnext) fun hid => hid.2
    · rw [Function.update_of_ne hj] at hid
      exact (h.below j id hid).trans_le hnext
  · by_cases hj : j = i
    · subst hj
      rw [Function.update_self] at hid
      rw [Function.update_of_ne hjk.symm]
      exact hid.elim (h.disjoint j k hjk id) fun hid hk =>
        absurd (h.below k id hk) (Nat.not_lt.2 hid.1)
    · rw [Function.update_of_ne hj] at hid
      by_cases hk : k = i
      · subst hk
        rw [Function.update_self]
        rintro (hmem | hmem)
        · exact h.disjoint j k hjk id hid hmem
        · exact absurd (h.below j id hid) (Nat.not_lt.2 hmem.1)
      · rw [Function.update_of_ne hk]
        exact h.disjoint j k hjk id hid

/-- After a step of one task, all tasks still keep to their parties. -/
theorem Proceeds.update
    (h : ∀ i, Proceeds (parties i) (Party.among parties {i}ᶜ) (goals i) (tasks i) (owns i) t)
    (hapart : Apart owns t) {i : ι} {m : Task α} (hstep : Step (tasks i) t m t') (j : ι) :
    Proceeds (parties j) (Party.among parties {j}ᶜ) (goals j) (Function.update tasks i m j)
      (Function.update owns i (owns i ∪ t.opened t') j) t' := by
  by_cases hj : j = i
  · subst hj
    rw [Function.update_self, Function.update_self]
    exact (h j).goes (.refl _ _ _) hstep
  · rw [Function.update_of_ne hj, Function.update_of_ne hj]
    exact (h j).after (hapart.changes_others ((h i).keeps (.refl _ _ _) hstep) hj)

/-- **Several tasks.** Tasks that each keep to their party while the others keep to theirs reach
their goals together, however their steps are interleaved, and have changed the tree as the parties
may. -/
theorem Proceeds.exists_of_endTogether
    (h : ∀ i, Proceeds (parties i) (Party.among parties {i}ᶜ) (goals i) (tasks i) (owns i) t)
    (hapart : Apart owns t) (hends : EndTogether tasks t results t') :
    ∃ owns' : ι → Set TempId, (∀ i, owns i ⊆ owns' i) ∧
      (∀ i, ∀ id ∈ owns' i, id ∈ owns i ∨ t.nextTemp ≤ id) ∧
      (∀ i, goals i (results i) (owns' i) t') ∧
      (Party.among parties Set.univ).Changes (⋃ i, owns' i)ᶜ t t' := by
  induction hends generalizing owns with
  | done =>
    exact ⟨owns, fun _ => subset_rfl, fun _ _ => .inl,
      fun i => (h i).ends rfl (.refl _ _ _), .refl _ _ _⟩
  | @step tasks t t₁ t' results i m hstep _ ih =>
    have hkeeps := (h i).keeps (.refl _ _ _) hstep
    obtain ⟨owns', hsub, hnew, hgoals, hchanges⟩ :=
      ih (Proceeds.update h hapart hstep) (hapart.step hkeeps.nextTemp)
    -- what was owned before the step, by the task that has made it and by the others
    obtain ⟨hmine, hothers⟩ :=
      (Function.forall_update_iff owns fun j own => own ⊆ owns' j).1 hsub
    obtain ⟨hnewMine, hnewOthers⟩ := (Function.forall_update_iff owns fun j own =>
      ∀ id ∈ owns' j, id ∈ own ∨ t₁.nextTemp ≤ id).1 hnew
    refine ⟨owns', fun j => ?_, fun j id hid => ?_, hgoals, ?_⟩
    · by_cases hj : j = i
      · exact hj ▸ fun id hid => hmine (.inl hid)
      · exact hothers j hj
    · by_cases hj : j = i
      · subst hj
        rcases hnewMine id hid with (hid | hid) | hid
        · exact .inl hid
        · exact .inr hid.1
        · exact .inr (hkeeps.nextTemp.trans hid)
      · exact (hnewOthers j hj id hid).imp_right hkeeps.nextTemp.trans
    · refine (hkeeps.mono (Party.le_among (Set.mem_univ i)) ?_).trans hchanges
      exact Set.compl_subset_compl.2 fun id hid => Set.mem_iUnion.2 ⟨i, hmine hid⟩

end Several

end Task

end ChipAtlas
