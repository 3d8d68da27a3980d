import ChipAtlas.Files.Staging
import ChipAtlas.Proofs.Files.Parties
import Mathlib.Data.List.Nodup

/-!
# Staged outputs while others work

What a piece of work knows of its staged outputs: which they are, what has been written to each, and
that no other temporary file of its own is left (`Staging.Holds`). The others, who make directories
and put files but leave the temporary files of this work alone, do not change any of this
(`Staging.Holds.after`). So it is carried from step to step: one lemma for each operation on a
staging says what holds after it.

* `Work.Proceeds` — work that keeps to its party;
* `Staging.proceeds_stage`, `Staging.proceeds_write`, `Staging.proceeds_checkDir` — the operations;
* `Staging.proceeds_discard` — dropping leaves no temporary file;
* `Staging.proceeds_commit` — a commit that succeeds has put every output to its place.
-/

namespace ChipAtlas

open FileTree

namespace Work

variable {ε α β : Type} {me env : Party} {s : Staging} {own : Set TempId} {t : FileTree}

/-- What is to be true when work has succeeded, of its staging too. -/
abbrev Goal (α : Type) := α → Staging → Set TempId → FileTree → Prop

/-- The goal of work, by its result. -/
def Outcome (good : Goal α) (bad : Staging → Set TempId → FileTree → Prop) :
    Task.Goal (Except ε α × Staging)
  | (.ok a, s), own, t => good a s own t
  | (.error _, s), own, t => bad s own t

/-- Work keeps to its party, and one goal is reached if it succeeds and another if it fails. -/
def Proceeds (me env : Party) (good : Goal α) (bad : Staging → Set TempId → FileTree → Prop)
    (w : Work ε α) (s : Staging) (own : Set TempId) (t : FileTree) : Prop :=
  Task.Proceeds me env (Outcome good bad) ((ExceptT.run w).run s) own t

variable {good : Goal α} {bad : Staging → Set TempId → FileTree → Prop}

theorem proceeds_pure {a : α} (h : ∀ t', env.Changes own t t' → good a s own t') :
    Proceeds me env good bad (pure a : Work ε α) s own t :=
  Task.Proceeds.done h

theorem proceeds_throw {e : ε} (h : ∀ t', env.Changes own t t' → bad s own t') :
    Proceeds me env good bad (throw e : Work ε α) s own t :=
  Task.Proceeds.done h

theorem proceeds_bind {w : Work ε α} {f : α → Work ε β} {M : Goal α} {good : Goal β}
    (hw : Proceeds me env M bad w s own t)
    (hf : ∀ a s own t, (∀ t', env.Changes own t t' → M a s own t') →
      Proceeds me env good bad (f a) s own t) :
    Proceeds me env good bad (w >>= f) s own t := by
  refine Task.Proceeds.bind hw.stays fun r own t hmid => ?_
  obtain ⟨e | a, s⟩ := r
  · exact Task.Proceeds.done hmid
  · exact hf _ s own t hmid

/-- Where it does not matter what the others do before the second work begins. -/
theorem Proceeds.andThen {w : Work ε α} {f : α → Work ε β} {M : Goal α} {good : Goal β}
    (hw : Proceeds me env M bad w s own t)
    (hf : ∀ a s own t, M a s own t → Proceeds me env good bad (f a) s own t) :
    Proceeds me env good bad (w >>= f) s own t :=
  proceeds_bind hw fun a s own t hmid => hf a s own t (hmid t (.refl _ _ _))

theorem proceeds_map {w : Work ε α} {f : α → β} {good : Goal β}
    (hw : Proceeds me env (fun a => good (f a)) bad w s own t) :
    Proceeds me env good bad (f <$> w) s own t := by
  refine Task.Proceeds.bind (Task.Proceeds.stays hw) fun r own t hr => ?_
  obtain ⟨e | a, s⟩ := r
  · exact Task.Proceeds.done hr
  · exact Task.Proceeds.done hr

/-- **Frames.** What nobody's steps spoil is carried along. -/
theorem Proceeds.frame {w : Work ε α} {R : FileTree → Prop}
    (h : Proceeds me env good bad w s own t) (hkept : Task.Kept me env R) (hR : R t) :
    Proceeds me env (fun a s own t => good a s own t ∧ R t) bad w s own t := by
  refine (Task.Proceeds.frame h hkept hR).mono fun r own t hr => ?_
  obtain ⟨e | a, s⟩ := r
  · exact hr.1
  · exact hr

theorem Proceeds.mono {w : Work ε α} {good' : Goal α} (h : Proceeds me env good bad w s own t)
    (hgood : ∀ a s own t, good a s own t → good' a s own t) :
    Proceeds me env good' bad w s own t := by
  refine Task.Proceeds.mono h fun r own t hr => ?_
  obtain ⟨e | a, s⟩ := r
  · exact hr
  · exact hgood a s own t hr

theorem proceeds_ask {m : Task α} (h : Task.Proceeds me env (fun a => good a s) m own t) :
    Proceeds me env good bad (ask m : Work ε α) s own t := by
  have hpair : Task.Proceeds me env (fun (r : α × Staging) own t =>
      ∀ t', env.Changes own t t' → good r.1 r.2 own t') (m >>= fun a => pure (a, s)) own t :=
    h.stays.bind fun a own t hgood =>
      .done fun t' henv t'' hlater => hgood t'' (henv.trans hlater)
  exact hpair.bind fun r own t hgood => .done fun t' henv => hgood t' henv

theorem proceeds_demand {fail : IoError → ε} {m : Task (Except IoError α)}
    (h : Task.Proceeds me env (fun r own t => Outcome good bad (r, s) own t) m own t) :
    Proceeds me env good bad (demand fail m) s own t := by
  refine proceeds_bind (M := fun r s own t => Outcome good bad (r, s) own t)
    (proceeds_ask h) fun r s own t hmid => ?_
  cases r with
  | ok a => exact proceeds_pure hmid
  | error e => exact proceeds_throw hmid

theorem proceeds_modify {f : Staging → Staging} {good : Goal Unit}
    (h : ∀ t', env.Changes own t t' → good () (f s) own t') :
    Proceeds me env good bad (modify f : Work ε Unit) s own t :=
  Task.Proceeds.done h

end Work

namespace Staging

variable {ε : Type} {me env : Party} {s : Staging} {own : Set TempId} {t t' : FileTree}

/-- The temporary file of an output for a path, with what has been written to it. -/
def fileFor (path : String) (bytes : List UInt8) : TempFile where
  folder := Path.place (Path.folder path)
  way := Path.folder path
  bytes := bytes

theorem fileFor_way (path : String) (bytes : List UInt8) :
    (fileFor path bytes).way = Path.folder path := by
  rw [fileFor]

/-- The temporary files of a piece of work: those of its staged outputs, with what has been written
to them, and no others. -/
structure Holds (held : List (Staged × List UInt8)) (own : Set TempId) (t : FileTree) : Prop where
  nodup : (held.map (·.1.temp)).Nodup
  owned : ∀ h ∈ held, h.1.temp ∈ own
  /-- What is opened later has another number. -/
  below : ∀ id ∈ own, id < t.nextTemp
  temps : ∀ h ∈ held, t.temps.get? h.1.temp = some (fileFor h.1.path h.2)
  ways : ∀ h ∈ held, t.Open [] (Path.pieces (Path.folder h.1.path))
  /-- Whatever else has been opened is gone. -/
  dropped : ∀ id ∈ own, id ∉ held.map (·.1.temp) → t.temps.get? id = none

namespace Holds

variable {held front back : List (Staged × List UInt8)} {output : Staged} {old : List UInt8}

/-- Nothing is staged at first. -/
theorem nil (t : FileTree) : Holds [] ∅ t := by
  refine ⟨.nil, nofun, nofun, nofun, nofun, nofun⟩

/-- Nobody who leaves these temporary files alone spoils this. -/
theorem of_temps (h : Holds held own t) (hdirs : t.KeepsDirs t')
    (htemps : ∀ id ∈ own, t'.temps.get? id = t.temps.get? id) (hnext : t.nextTemp ≤ t'.nextTemp) :
    Holds held own t' where
  nodup := h.nodup
  owned := h.owned
  below := fun id hid => (h.below id hid).trans_le hnext
  temps := fun g hg => (htemps _ (h.owned g hg)).trans (h.temps g hg)
  ways := fun g hg => (h.ways g hg).mono hdirs
  dropped := fun id hid hnot => (htemps id hid).trans (h.dropped id hid hnot)

theorem after (h : Holds held own t) (henv : env.Changes own t t') : Holds held own t' :=
  h.of_temps henv.keepsDirs henv.temps henv.nextTemp

theorem addsDirs {places : List Location} (h : Holds held own t) (hadds : AddsDirs places t t') :
    Holds held own t' :=
  h.of_temps hadds.keepsDirs (fun id _ => by rw [hadds.temps]) hadds.nextTemp.ge

theorem ne_nextTemp (h : Holds held own t) {id : TempId} (hid : id ∈ own) : t.nextTemp ≠ id :=
  (h.below id hid).ne'

/-- One more temporary file that is gone again. -/
theorem extend (h : Holds held own t) {id : TempId} (hbelow : id < t.nextTemp)
    (hnone : t.temps.get? id = none) : Holds held (own ∪ {id}) t where
  nodup := h.nodup
  owned := fun g hg => .inl (h.owned g hg)
  below := by
    rintro other (hother | rfl)
    · exact h.below other hother
    · exact hbelow
  temps := h.temps
  ways := h.ways
  dropped := by
    rintro other (hother | rfl) hnot
    · exact h.dropped other hother hnot
    · exact hnone

theorem get?_withNewTemp (t : FileTree) (temp : TempFile) (id : TempId) :
    (t.withNewTemp temp).temps.get? id =
      if t.nextTemp = id then some temp else t.temps.get? id :=
  OrderedMap.get?_insert ..

/-- One more output, to which nothing has been written. -/
theorem withNewTemp {path : String} (h : Holds held own t)
    (hopen : t.Open [] (Path.pieces (Path.folder path))) :
    Holds (held ++ [(⟨t.nextTemp, path⟩, [])]) (own ∪ {t.nextTemp})
      (t.withNewTemp (fileFor path [])) := by
  have hdirs : t.KeepsDirs (t.withNewTemp (fileFor path [])) := fun _ hl => hl
  have hnew : ∀ {g : Staged × List UInt8}, g ∈ [((⟨t.nextTemp, path⟩ : Staged), [])] →
      g = (⟨t.nextTemp, path⟩, []) := List.mem_singleton.1
  refine ⟨?_, fun g hg => ?_, ?_, fun g hg => ?_, fun g hg => ?_, ?_⟩
  · rw [List.map_append, List.nodup_append]
    refine ⟨h.nodup, List.nodup_singleton _, fun id hid other hother => ?_⟩
    obtain ⟨g, hg, rfl⟩ := List.mem_map.1 hid
    rw [List.mem_singleton.1 hother]
    exact (h.ne_nextTemp (h.owned g hg)).symm
  · rcases List.mem_append.1 hg with hg | hg
    · exact .inl (h.owned g hg)
    · exact .inr (hnew hg ▸ rfl)
  · rintro id (hid | rfl)
    · exact (h.below id hid).trans (Nat.lt_succ_self _)
    · exact Nat.lt_succ_self _
  · rw [get?_withNewTemp]
    rcases List.mem_append.1 hg with hg | hg
    · rw [if_neg (h.ne_nextTemp (h.owned g hg)), h.temps g hg]
    · rw [hnew hg, if_pos rfl]
  · rcases List.mem_append.1 hg with hg | hg
    · exact (h.ways g hg).mono hdirs
    · rw [hnew hg]
      exact hopen.mono hdirs
  · rintro id (hid | rfl) hnot
    · rw [get?_withNewTemp, if_neg (h.ne_nextTemp hid)]
      refine h.dropped id hid fun hmem => hnot ?_
      rw [List.map_append]
      exact List.mem_append_left _ hmem
    · refine absurd ?_ hnot
      rw [List.map_append]
      exact List.mem_append_right _ (List.mem_singleton_self _)

/-- A temporary file that is opened and dropped again. -/
theorem discard_new {temp : TempFile} {t₁ : FileTree} (h : Holds held own t)
    (hopen : t.Open [] (Path.pieces temp.way))
    (henv : env.Changes (own ∪ {t.nextTemp}) (t.withNewTemp temp) t₁) :
    Holds held (own ∪ {t.nextTemp}) (Stateful.endState (FileTree.discard t.nextTemp t₁)) := by
  have hdirs : t.KeepsDirs t₁ := fun l hl => henv.keepsDirs l hl
  have htemp : t₁.temps.get? t.nextTemp = some temp := by
    rw [henv.temps _ (.inr rfl), get?_withNewTemp, if_pos rfl]
  rw [discard_of_get? htemp (hopen.mono hdirs)]
  have hget (id : TempId) : (t₁.eraseTemp t.nextTemp).temps.get? id =
      if t.nextTemp = id then none else t₁.temps.get? id := OrderedMap.get?_erase ..
  have hnext : t.nextTemp < t₁.nextTemp := henv.nextTemp
  have hheld : Holds held own (t₁.eraseTemp t.nextTemp) := by
    refine h.of_temps (fun l hl => hdirs l hl) (fun id hid => ?_) hnext.le
    have hne := h.ne_nextTemp hid
    exact ((hget id).trans (if_neg hne)).trans ((henv.temps id (.inl hid)).trans
      ((get?_withNewTemp t temp id).trans (if_neg hne)))
  exact hheld.extend hnext ((hget _).trans (if_pos rfl))

/-- One output has a number that no other has. -/
theorem temp_ne (h : Holds (front ++ (output, old) :: back) own t) {g : Staged × List UInt8}
    (hg : g ∈ front ++ back) : output.temp ≠ g.1.temp := by
  have hnodup := h.nodup
  rw [List.map_append, List.map_cons, List.nodup_middle, ← List.map_append] at hnodup
  intro heq
  have hmem : g.1.temp ∈ (front ++ back).map (·.1.temp) := List.mem_map_of_mem hg
  exact (List.nodup_cons.1 hnodup).1 (heq ▸ hmem)

/-- One output has more bytes. -/
theorem rewrite {bytes : List UInt8} {t₁ : FileTree}
    (h : Holds (front ++ (output, old) :: back) own t) (hdirs : t.KeepsDirs t₁)
    (hnext : t₁.nextTemp = t.nextTemp)
    (htemps : t₁.temps = t.temps.insert output.temp (fileFor output.path bytes)) :
    Holds (front ++ (output, bytes) :: back) own t₁ := by
  have hmem : (output, old) ∈ front ++ (output, old) :: back :=
    List.mem_append_right _ List.mem_cons_self
  have hsame : (front ++ (output, bytes) :: back).map (·.1.temp) =
      (front ++ (output, old) :: back).map (·.1.temp) := by
    rw [List.map_append, List.map_append, List.map_cons, List.map_cons]
  have hget (id : TempId) : t₁.temps.get? id =
      if output.temp = id then some (fileFor output.path bytes) else t.temps.get? id := by
    rw [htemps, OrderedMap.get?_insert]
  have hcases : ∀ g ∈ front ++ (output, bytes) :: back, g = (output, bytes) ∨
      g ∈ front ++ (output, old) :: back ∧ output.temp ≠ g.1.temp := by
    intro g hg
    rw [List.mem_append, List.mem_cons] at hg
    rcases hg with hg | rfl | hg
    · exact .inr ⟨List.mem_append_left _ hg, h.temp_ne (List.mem_append_left _ hg)⟩
    · exact .inl rfl
    · exact .inr ⟨List.mem_append_right _ (List.mem_cons_of_mem _ hg),
        h.temp_ne (List.mem_append_right _ hg)⟩
  have howned : output.temp ∈ own := h.owned (output, old) hmem
  have hway : t.Open [] (Path.pieces (Path.folder output.path)) := h.ways (output, old) hmem
  refine ⟨hsame ▸ h.nodup, fun g hg => ?_, fun id hid => hnext.symm ▸ h.below id hid,
    fun g hg => ?_, fun g hg => ?_, fun id hid hnot => ?_⟩
  · obtain rfl | ⟨hg, -⟩ := hcases g hg
    · exact howned
    · exact h.owned g hg
  · obtain rfl | ⟨hg, hne⟩ := hcases g hg
    · rw [hget, if_pos rfl]
    · rw [hget, if_neg hne, h.temps g hg]
  · obtain rfl | ⟨hg, -⟩ := hcases g hg
    · exact hway.mono hdirs
    · exact (h.ways g hg).mono hdirs
  · rw [hsame] at hnot
    have hne : output.temp ≠ id := fun heq => hnot (heq ▸ List.mem_map_of_mem hmem)
    rw [hget, if_neg hne, h.dropped id hid hnot]

/-- More bytes for one output. -/
theorem withTemp {temp : TempFile} (h : Holds (front ++ (output, old) :: back) own t)
    (htemp : t.temps.get? output.temp = some temp) (bytes : List UInt8) :
    Holds (front ++ (output, old ++ bytes) :: back) own
      (t.withTemp output.temp { temp with bytes := temp.bytes ++ bytes }) := by
  have hfile : t.temps.get? output.temp = some (fileFor output.path old) :=
    h.temps (output, old) (List.mem_append_right _ List.mem_cons_self)
  have hnew : ({ temp with bytes := temp.bytes ++ bytes } : TempFile) =
      fileFor output.path (old ++ bytes) := by
    have heq : temp = fileFor output.path old := Option.some.inj (htemp.symm.trans hfile)
    simp only [heq, fileFor]
  rw [hnew]
  exact h.rewrite (fun _ hl => hl) rfl rfl

/-- The first output is no longer staged. -/
theorem tail {t₁ : FileTree} (h : Holds ((output, old) :: back) own t)
    (hdirs : t.KeepsDirs t₁) (hnext : t₁.nextTemp = t.nextTemp)
    (htemps : t₁.temps = t.temps.erase output.temp) : Holds back own t₁ := by
  have hnodup := (List.nodup_cons.1 h.nodup).2
  have hget (id : TempId) : t₁.temps.get? id =
      if output.temp = id then none else t.temps.get? id := by rw [htemps, OrderedMap.get?_erase]
  refine ⟨hnodup, fun g hg => h.owned g (List.mem_cons_of_mem _ hg),
    fun id hid => hnext.symm ▸ h.below id hid, fun g hg => ?_,
    fun g hg => (h.ways g (List.mem_cons_of_mem _ hg)).mono hdirs, fun id hid hmem => ?_⟩
  · have hall : Holds ([] ++ (output, old) :: back) own t := h
    have hne : output.temp ≠ g.1.temp := hall.temp_ne hg
    rw [hget, if_neg hne, h.temps g (List.mem_cons_of_mem _ hg)]
  · rw [hget]
    split
    next => rfl
    next hne =>
      refine h.dropped id hid fun hmem' => ?_
      exact (List.mem_cons.1 hmem').elim (fun heq => hne heq.symm) hmem

theorem get?_first (h : Holds ((output, old) :: back) own t) :
    t.temps.get? output.temp = some (fileFor output.path old) :=
  h.temps _ List.mem_cons_self

/-- The first output is dropped. -/
theorem discard_first (h : Holds ((output, old) :: back) own t) :
    Holds back own (Stateful.endState (FileTree.discard output.temp t)) := by
  have hway : t.Open [] (Path.pieces (Path.folder output.path)) :=
    h.ways (output, old) List.mem_cons_self
  rw [← fileFor_way output.path old] at hway
  rw [discard_of_get? h.get?_first hway]
  have hdirs : t.KeepsDirs (t.eraseTemp output.temp) := fun _ hl => hl
  exact h.tail hdirs rfl rfl

/-- The first output is moved to a place. -/
theorem publish_first {l : Location} (h : Holds ((output, old) :: back) own t)
    (bytes : List UInt8) (hl : l ≠ []) (hnotDir : t.node? l ≠ some .dir) :
    Holds back own ((t.eraseTemp output.temp).put l (.file bytes)) := by
  refine h.tail (fun m hm => ?_) rfl rfl
  have hne : l ≠ m := fun heq => hnotDir (heq ▸ hm)
  exact (node?_put hl _ m).trans ((if_neg hne).trans hm)

end Holds

/-! ### Operations -/

variable {held front back : List (Staged × List UInt8)} {path : String}

/-- The outputs of a staging, with what has been written to them. -/
structure Carries (held : List (Staged × List UInt8)) (s : Staging) (own : Set TempId)
    (t : FileTree) : Prop where
  files : s.files = held.map (·.1)
  holds : Holds held own t

/-- A staging that knows the temporary files of its work: what is to be true when work fails. -/
def Complete (s : Staging) (own : Set TempId) (t : FileTree) : Prop := ∃ held, Carries held s own t

theorem Carries.after (h : Carries held s own t) (henv : env.Changes own t t') :
    Carries held s own t' :=
  ⟨h.files, h.holds.after henv⟩

theorem Carries.complete (h : Carries held s own t) : Complete s own t := ⟨held, h⟩

/-- A temporary file has been opened in a directory and is not yet staged. -/
def Opened (env : Party) (held : List (Staged × List UInt8)) (folder : String) (id : TempId)
    (own : Set TempId) (t : FileTree) : Prop :=
  ∃ own₁ t₁, Holds held own₁ t₁ ∧ t₁.Open [] (Path.pieces folder) ∧ id = t₁.nextTemp ∧
    own = own₁ ∪ {t₁.nextTemp} ∧
    env.Changes own (t₁.withNewTemp { folder := Path.place folder, way := folder }) t

theorem proceeds_openIn {folder : String} (hways : ∀ l ∈ Path.way folder, l ∈ me.ways)
    (h : Holds held own t) :
    Task.Proceeds me env (fun r own t => match r with
      | .ok id => Opened env held folder id own t
      | .error _ => Holds held own t) (openIn folder) own t := by
  refine .makeDirs hways (fun t₁ t₂ cause henv hadds => ?_) fun t₁ t₂ henv hadds _ => ?_
  · exact .done fun t' hlater => ((h.after henv).addsDirs hadds).after hlater
  · have hmade := (h.after henv).addsDirs hadds
    refine .openTemp (fun t₃ cause hlater => ?_) fun t₃ hlater hopen => ?_
    · exact .done fun t' hlast => (hmade.after hlater).after hlast
    · refine .done fun t' hlast => ?_
      exact ⟨own, t₃, hmade.after hlater, hopen, rfl, rfl, hlast⟩

/-- **Staging.** -/
theorem proceeds_stage (fail : IoError → ε)
    (hways : ∀ l ∈ Path.way (Path.folder path), l ∈ me.ways) (h : Carries held s own t) :
    Work.Proceeds me env
      (fun output s own t => output.path = path ∧ Carries (held ++ [(output, [])]) s own t)
      Complete (stage fail path) s own t := by
  refine Work.Proceeds.andThen (M := fun _ s own t => Carries held s own t) ?_
    fun there s own t hcarries => ?_
  · refine Work.proceeds_ask (.isDir fun t₁ henv => .done fun t₂ hlater => ?_)
    exact (h.after henv).after hlater
  cases there with
  | true => exact Work.proceeds_throw fun t' henv => (hcarries.after henv).complete
  | false =>
    refine Work.Proceeds.andThen (M := fun id s own t =>
      s.files = held.map (·.1) ∧ Opened env held (Path.folder path) id own t) ?_
      fun id s own t ⟨hfiles, own₁, t₁, hheld, hopen, hid, hown, henv⟩ => ?_
    · refine Work.proceeds_demand ((proceeds_openIn hways hcarries.holds).mono ?_)
      intro r own t hr
      cases r with
      | ok id => exact ⟨hcarries.files, hr⟩
      | error e => exact ⟨held, hcarries.files, hr⟩
    · subst hid hown
      have hstaged : Carries (held ++ [(⟨t₁.nextTemp, path⟩, [])])
          { files := s.files ++ [⟨t₁.nextTemp, path⟩] } (own₁ ∪ {t₁.nextTemp}) t := by
        refine ⟨?_, (hheld.withNewTemp hopen).after henv⟩
        rw [List.map_append, hfiles]
        rfl
      refine Work.Proceeds.andThen (M := fun _ s own t =>
        Carries (held ++ [(⟨t₁.nextTemp, path⟩, [])]) s own t)
        (Work.proceeds_modify fun t' hlater => hstaged.after hlater) fun _ s own t hmid => ?_
      exact Work.proceeds_pure fun t' hlater => ⟨rfl, hmid.after hlater⟩

/-- **Writing.** -/
theorem proceeds_write (fail : IoError → ε) {output : Staged} {old : List UInt8}
    (bytes : List UInt8) (h : Carries (front ++ (output, old) :: back) s own t) :
    Work.Proceeds me env
      (fun _ s own t => Carries (front ++ (output, old ++ bytes) :: back) s own t)
      Complete (write fail output bytes) s own t := by
  have howned : output.temp ∈ own :=
    h.holds.owned (output, old) (List.mem_append_right _ List.mem_cons_self)
  have hfiles : s.files = (front ++ (output, old ++ bytes) :: back).map (·.1) := by
    rw [h.files, List.map_append, List.map_append, List.map_cons, List.map_cons]
  refine Work.proceeds_demand (.map (.append howned (fun t₁ cause henv => ?_)
    fun t₁ temp henv htemp => ?_))
  · exact .done fun t' hlater => ((h.after henv).after hlater).complete
  · refine .done fun t' hlater => ⟨hfiles, ?_⟩
    exact ((h.after henv).holds.withTemp htemp bytes).after hlater

/-- **Checking a directory.** -/
theorem proceeds_checkDir (hways : ∀ l ∈ Path.way path, l ∈ me.ways) (h : Carries held s own t) :
    Task.Proceeds me env (fun r own t => Carries held s own t ∧
      (r = .ok () → t.Open [] (Path.pieces path))) (checkDir path) own t := by
  refine (proceeds_openIn hways h.holds).stays.bind fun r own t hopened => ?_
  cases r with
  | error e => exact .done fun t' henv => ⟨⟨h.files, hopened t' henv⟩, nofun⟩
  | ok id =>
    obtain ⟨own₁, t₁, hheld, hopen, rfl, rfl, henv⟩ := hopened t (.refl _ _ _)
    refine .discard (.inr rfl) fun t₂ hlater => .done fun t' hlast => ⟨⟨h.files, ?_⟩, fun _ => ?_⟩
    · exact (hheld.discard_new hopen (henv.trans hlater)).after hlast
    · have hfirst : t₁.KeepsDirs t₂ := fun l hl => (henv.trans hlater).keepsDirs l hl
      have hsecond : t₂.KeepsDirs (Stateful.endState (FileTree.discard t₁.nextTemp t₂)) :=
        fun l hl => by rwa [node?, nodes_discard]
      exact ((hopen.mono hfirst).mono hsecond).mono hlast.keepsDirs

theorem proceeds_discardAll (h : Holds held own t) :
    Task.Proceeds me env (fun _ own t => ∀ id ∈ own, t.temps.get? id = none)
      (discardAll (held.map (·.1))) own t := by
  induction held generalizing t with
  | nil =>
    refine .done fun t' henv id hid => ?_
    exact (h.after henv).dropped id hid List.not_mem_nil
  | cons first rest ih =>
    obtain ⟨output, bytes⟩ := first
    refine .discard (h.owned (output, bytes) List.mem_cons_self) fun t₁ henv => ?_
    exact ih (h.after henv).discard_first

/-- **Dropping** leaves no temporary file. -/
theorem proceeds_discard (h : Complete s own t) :
    Task.Proceeds me env (fun _ own t => ∀ id ∈ own, t.temps.get? id = none)
      (discard s) own t := by
  obtain ⟨held, hcarries⟩ := h
  rw [discard, hcarries.files]
  exact proceeds_discardAll hcarries.holds

/-! ### Commits -/

/-- What is put last at a place when files are put to their paths in order. -/
def lastAt (outs : List (String × List UInt8)) (l : Location) : Option (List UInt8) :=
  ((outs.filter fun out => Path.place out.1 = l).getLast?).map (·.2)

theorem lastAt_append_singleton (outs : List (String × List UInt8)) (out : String × List UInt8)
    (l : Location) :
    lastAt (outs ++ [out]) l = if Path.place out.1 = l then some out.2 else lastAt outs l := by
  rw [lastAt, lastAt, List.filter_append]
  split
  next heq => simp [heq]
  next hne => simp [hne]

theorem lastAt_eq_none_iff {outs : List (String × List UInt8)} {l : Location} :
    lastAt outs l = none ↔ ∀ out ∈ outs, Path.place out.1 ≠ l := by
  simp [lastAt]

/-- What is last at a place was put there. -/
theorem exists_of_lastAt {outs : List (String × List UInt8)} {l : Location} {bytes : List UInt8}
    (h : lastAt outs l = some bytes) : ∃ out ∈ outs, Path.place out.1 = l := by
  by_contra hnone
  push Not at hnone
  exact nomatch h.symm.trans (lastAt_eq_none_iff.2 hnone)

/-- Where something is put, something is last. -/
theorem exists_lastAt {outs : List (String × List UInt8)} {out : String × List UInt8}
    (h : out ∈ outs) : ∃ bytes, lastAt outs (Path.place out.1) = some bytes :=
  Option.ne_none_iff_exists'.1 fun hnone => lastAt_eq_none_iff.1 hnone out h rfl

/-- What is put to a place behind which no more is put there is the last at it. -/
theorem lastAt_append_cons {front back : List (String × List UInt8)} {path : String}
    {bytes : List UInt8} (h : ∀ later ∈ back, Path.place later.1 ≠ Path.place path) :
    lastAt (front ++ (path, bytes) :: back) (Path.place path) = some bytes := by
  induction back using List.reverseRecOn with
  | nil => rw [lastAt_append_singleton, if_pos rfl]
  | append_singleton back later ih =>
    have hlater := h later (List.mem_append_right _ (List.mem_singleton_self later))
    rw [← List.cons_append, ← List.append_assoc, lastAt_append_singleton, if_neg hlater]
    exact ih fun other hother => h other (List.mem_append_left _ hother)

/-- Outputs are at their places, but for what others have done there since. -/
structure Published (env : Party) (outs : List (String × List UInt8)) (t : FileTree) : Prop where
  ends : ∀ out ∈ outs, t.EndsAt out.1 (Path.place out.1) ∧ Path.endsWithSlash out.1 = false
  nodes : ∀ l bytes, lastAt outs l = some bytes →
    env.Leads l (some (.file bytes)) (t.node? l)

theorem Published.after {outs : List (String × List UInt8)} {kept : Set TempId}
    (h : Published env outs t) (henv : env.Changes kept t t') : Published env outs t' :=
  ⟨fun out hout => ⟨(h.ends out hout).1.mono henv.keepsDirs, (h.ends out hout).2⟩,
    fun l bytes hlast => (h.nodes l bytes hlast).trans (henv.nodes l)⟩

/-- One more output is put to its place. -/
theorem Published.put {outs : List (String × List UInt8)} {out : String × List UInt8}
    (h : Published env outs t) (id : TempId) (hends : t.EndsAt out.1 (Path.place out.1))
    (hslash : Path.endsWithSlash out.1 = false) (hnotDir : t.node? (Path.place out.1) ≠ some .dir) :
    Published env (outs ++ [out]) ((t.eraseTemp id).put (Path.place out.1) (.file out.2)) := by
  have hnode (m : Location) : ((t.eraseTemp id).put (Path.place out.1) (.file out.2)).node? m =
      if Path.place out.1 = m then some (.file out.2) else t.node? m := node?_put hends.ne_nil _ m
  have hdirs : t.KeepsDirs ((t.eraseTemp id).put (Path.place out.1) (.file out.2)) := by
    intro m hm
    have hne : Path.place out.1 ≠ m := fun heq => hnotDir (heq ▸ hm)
    rw [hnode, if_neg hne, hm]
  refine ⟨fun other hother => ?_, fun l bytes hlast => ?_⟩
  · rcases List.mem_append.1 hother with hother | hother
    · exact ⟨(h.ends other hother).1.mono hdirs, (h.ends other hother).2⟩
    · rw [List.mem_singleton.1 hother]
      exact ⟨hends.mono hdirs, hslash⟩
  · rw [lastAt_append_singleton] at hlast
    rw [hnode]
    split at hlast
    next heq =>
      rw [if_pos heq, Option.some.inj hlast]
    next hne =>
      rw [if_neg hne]
      exact h.nodes l bytes hlast

/-- An output is read where it is the last at its place, and the others neither remove it nor put
anything else there. -/
theorem Published.read {outs : List (String × List UInt8)} {path : String} {bytes : List UInt8}
    (h : Published env outs t) (hout : (path, bytes) ∈ outs)
    (hlast : lastAt outs (Path.place path) = some bytes)
    (hremoves : Path.place path ∉ env.removals)
    (hputs : ∀ put, (Path.place path, put) ∈ env.outputs → put = bytes) :
    t.read path = .ok bytes := by
  obtain ⟨hends, hslash⟩ := h.ends _ hout
  have hnode := (h.nodes _ _ hlast).eq_file hremoves hputs
  exact read_eq_ok_iff.2 (lookup_eq_file_iff.2 ⟨hslash, _, hends, hnode⟩)

/-- Removing moved files keeps to a party that may remove, and opens nothing. -/
theorem proceeds_removeAll {moved : List String}
    (hmoved : ∀ path ∈ moved, Path.place path ∈ me.removals) :
    Task.Proceeds me env (fun _ own' _ => own' = own) (removeAll moved) own t := by
  induction moved generalizing t with
  | nil => exact .done fun _ _ => rfl
  | cons path rest ih =>
    obtain ⟨hpath, hrest⟩ := List.forall_mem_cons.1 hmoved
    refine .remove hpath fun reply t₁ => ?_
    cases reply with
    | ok _ => exact ih hrest
    | error cause => exact .note (ih hrest)

/-- So does dropping files of its own. -/
theorem proceeds_dropAll {files : List Staged} (hfiles : ∀ file ∈ files, file.temp ∈ own) :
    Task.Proceeds me env (fun _ own' _ => own' = own) (discardAll files) own t := by
  induction files generalizing t with
  | nil => exact .done fun _ _ => rfl
  | cons file rest ih =>
    obtain ⟨hfile, hrest⟩ := List.forall_mem_cons.1 hfiles
    exact .discard hfile fun t₁ _ => ih hrest

/-- What follows an output that cannot be moved. -/
theorem proceeds_undo {moved : List String} {files : List Staged} {output : Staged}
    {r : Except IoError (List String)} (houtput : output.temp ∈ own)
    (hfiles : ∀ file ∈ files, file.temp ∈ own)
    (hmoved : ∀ path ∈ moved, Path.place path ∈ me.removals) :
    Task.Proceeds me env (fun r' _ _ => r' = r) (do
      .discard output.temp (.done ())
      removeAll moved
      discardAll files
      return r) own t := by
  have hfirst : Task.Proceeds me env (fun _ own' _ => own' = own)
      (.discard output.temp (.done ())) own t := .discard houtput fun _ _ => .done fun _ _ => rfl
  refine hfirst.bind fun _ own₁ t₁ hown => ?_
  rw [hown]
  refine (proceeds_removeAll hmoved).bind fun _ own₂ t₂ hown => ?_
  rw [hown]
  exact (proceeds_dropAll hfiles).bind fun _ _ _ _ => .done fun _ _ => rfl

/-- The outputs of a staging, with their bytes. -/
def outputs (held : List (Staged × List UInt8)) : List (String × List UInt8) :=
  held.map fun h => (h.1.path, h.2)

/-- By induction on the outputs that are still to be moved. -/
theorem proceeds_commitFrom {outs : List (String × List UInt8)} (h : Holds held own t)
    (houts : Published env outs t)
    (hputs : ∀ out ∈ outputs held, (Path.place out.1, out.2) ∈ me.outputs)
    (hremoves : ∀ out ∈ (outs ++ outputs held).dropLast, Path.place out.1 ∈ me.removals) :
    Task.Proceeds me env (fun r own t => ∀ paths, r = .ok paths →
      (∀ id ∈ own, t.temps.get? id = none) ∧ Published env (outs ++ outputs held) t)
      (commitFrom (outs.map (·.1)) (held.map (·.1))) own t := by
  induction held generalizing outs t with
  | nil =>
    refine .done fun t' henv _ _ => ⟨fun id hid => ?_, ?_⟩
    · exact (h.after henv).dropped id hid List.not_mem_nil
    · rw [outputs, List.map_nil, List.append_nil]
      exact houts.after henv
  | cons first rest ih =>
    obtain ⟨output, bytes⟩ := first
    have houtput : output.temp ∈ own := h.owned (output, bytes) List.mem_cons_self
    obtain ⟨hput, hrest⟩ := List.forall_mem_cons.1 hputs
    refine .publish houtput (fun t₁ cause henv => ?_)
      fun t₁ temp l henv htemp hends hslash hdir => ?_
    · refine (proceeds_undo houtput (fun file hfile => ?_) fun path hpath => ?_).mono
        fun r _ _ hr _ hok => nomatch hr.symm.trans hok
      · obtain ⟨g, hg, rfl⟩ := List.mem_map.1 hfile
        exact h.owned g (List.mem_cons_of_mem _ hg)
      · obtain ⟨out, hout, rfl⟩ := List.mem_map.1 hpath
        refine hremoves out ?_
        rw [outputs, List.map_cons, List.dropLast_append_of_ne_nil (List.cons_ne_nil _ _)]
        exact List.mem_append_left _ hout
    · obtain rfl := hends.eq_place
      have hfile := (h.after henv).get?_first
      have hbytes : temp.bytes = bytes := by rw [Option.some.inj (htemp.symm.trans hfile), fileFor]
      rw [hbytes]
      have hmoved : Published env (outs ++ [(output.path, bytes)]) ((t₁.eraseTemp output.temp).put
          (Path.place output.path) (.file bytes)) := (houts.after henv).put _ hends hslash hdir
      have hheld := (h.after henv).publish_first bytes hends.ne_nil hdir
      have hlater := ih hheld hmoved hrest (by rwa [List.append_assoc])
      rw [List.map_append, List.append_assoc] at hlater
      exact ⟨hput, .note hlater⟩

/-- **Commits.** A commit that succeeds leaves no temporary file, and every output is at its place,
but for what others have done there since. -/
theorem proceeds_commit (h : Carries held s own t)
    (hputs : ∀ out ∈ outputs held, (Path.place out.1, out.2) ∈ me.outputs)
    (hremoves : ∀ out ∈ (outputs held).dropLast, Path.place out.1 ∈ me.removals) :
    Task.Proceeds me env (fun r own t => ∀ paths, r = .ok paths →
      (∀ id ∈ own, t.temps.get? id = none) ∧ Published env (outputs held) t)
      (commit s) own t := by
  have hnothing : Published env [] t := ⟨nofun, nofun⟩
  rw [commit, h.files]
  exact proceeds_commitFrom h.holds hnothing hputs hremoves

end Staging

end ChipAtlas
