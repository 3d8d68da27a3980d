import ChipAtlas.Proofs.CommandLine.Job

/-!
# What a failed job leaves

A job can fail at any step: an output cannot be staged, the input cannot be read or is no database,
a write is refused, a table cannot be exported, the architecture is not known. As long as it has not
begun to commit, it has made nothing but directories and temporary files, and it knows all of these,
whether they are staged already or not (`Job.proceeds_prepare`). So when it drops what it knows,
directories are all that remains.

* `Job.ends_run_error_iff` — a job fails before its commit or in it;
* `Job.unpublished_of_failure` — what a job that fails before its commit leaves.
-/

namespace ChipAtlas.Job

open ChipAtlas.Task

variable {o : Options} {input : String} {failure : JobFailure} {staging : Staging}
  {t t₁ t' : FileTree}

/-- Nothing has been published: regular files are as they were, directories are still there, and no
temporary file has been left or lost. -/
structure Unpublished (t t' : FileTree) : Prop where
  files : ∀ l bytes, t'.node? l = some (.file bytes) ↔ t.node? l = some (.file bytes)
  dirs : t.KeepsDirs t'
  temps : ∀ id, t'.temps.get? id = t.temps.get? id

/-- A job fails before its commit, and drops what it has staged, or in its commit. -/
theorem ends_run_error_iff : Ends (run o input) t (.error failure) t' ↔
    (∃ staging t₁, Ends (prepare o input).start t (.error failure, staging) t₁ ∧
      Ends staging.discard t₁ () t') ∨
    ∃ staging t₁ e, Ends (prepare o input).start t (.ok (), staging) t₁ ∧
      Ends staging.commit t₁ (.error e) t' ∧ failure = .io e := by
  rw [run, ends_bind_iff]
  refine ⟨?_, ?_⟩
  · rintro ⟨⟨result | result, staging⟩, t₁, hprepare, hrest⟩
    · obtain ⟨⟨⟩, t₂, hdiscard, hlast⟩ := ends_bind_iff.1 hrest
      obtain ⟨hresult, rfl⟩ := ends_pure_iff.1 hlast
      obtain rfl := Except.error.inj hresult
      exact .inl ⟨staging, t₁, hprepare, hdiscard⟩
    · obtain ⟨committed, t₂, hcommit, hlast⟩ := ends_bind_iff.1 hrest
      cases committed with
      | error e =>
        obtain ⟨hresult, rfl⟩ := ends_pure_iff.1 hlast
        exact .inr ⟨staging, t₁, e, hprepare, hcommit, Except.error.inj hresult⟩
      | ok paths =>
        obtain ⟨⟨⟩, t₃, -, hlast⟩ := ends_bind_iff.1 hlast
        exact nomatch (ends_pure_iff.1 hlast).1
  · rintro (⟨staging, t₁, hprepare, hdiscard⟩ | ⟨staging, t₁, e, hprepare, hcommit, rfl⟩)
    · exact ⟨_, t₁, hprepare, hdiscard.bind .done⟩
    · exact ⟨_, t₁, hprepare, hcommit.bind .done⟩

/-- **A job that fails before its commit** publishes nothing, and the tree is as it was but for new
directories. It fails so whatever the step was at which it failed. -/
theorem unpublished_of_failure (hnumbered : t.Numbered)
    (hprepare : Ends (prepare o input).start t (.error failure, staging) t₁)
    (hdiscard : Ends staging.discard t₁ () t') :
    Ends (run o input) t (.error failure) t' ∧ Unpublished t t' := by
  refine ⟨ends_run_error_iff.2 (.inl ⟨staging, t₁, hprepare, hdiscard⟩), ?_⟩
  let maker : Party := .maker Set.univ
  have hproceeds : Proceeds maker .nobody _ (prepare o input).start ∅ t :=
    proceeds_prepare (fun _ _ l _ => Set.mem_univ l) (spares_maker _ o input)
      (spares_maker _ o input)
  obtain ⟨own₁, -, hnew₁, hcomplete, hchanges₁⟩ := hproceeds.exists_of_ends hprepare
  have hdrops : Proceeds maker .nobody _ staging.discard own₁ t₁ :=
    Staging.proceeds_discard hcomplete
  obtain ⟨own₂, hsub, hnew₂, hgone, hchanges₂⟩ := hdrops.exists_of_ends hdiscard
  have hchanges : maker.Changes own₂ᶜ t t' :=
    (hchanges₁.mono maker.le_refl (Set.compl_subset_compl.2 hsub)).trans hchanges₂
  refine ⟨fun l bytes => ⟨fun h => ?_, fun h => ?_⟩, hchanges.keepsDirs, fun id => ?_⟩
  · have hleads := hchanges.nodes l
    rw [h] at hleads
    exact hleads.file.resolve_right (Set.notMem_empty _)
  · have hleads := (hchanges.nodes l).of_maker
    rw [h] at hleads
    exact hleads.resolve_right fun hnone => nomatch hnone.1
  · by_cases hid : id ∈ own₂
    · -- its number had not been given before
      have hfresh : t.nextTemp ≤ id := by
        rcases hnew₂ id hid with hid | hid
        · exact (hnew₁ id hid).resolve_left (Set.notMem_empty id)
        · exact hchanges₁.nextTemp.trans hid
      rw [hgone id hid, hnumbered id hfresh]
    · exact hchanges.temps id hid

/-- An output has been made before, and there is an input that is no database. -/
def outdatedOutput : Disk where
  tree := (({} : FileTree).put ["in.db"] (.file (bytesOf "x\n"))).put ["grid.json"]
    (.file (bytesOf "old"))

/-- The output is wanted again, together with one in a directory that is not there. -/
def renewal : Options where
  inputs := ["in.db"]
  tileGrid := some "grid.json"
  fuseMap := some "maps/fuses.txt"

theorem unpublished_of_failure_renewal :
    outdatedOutput.tree.Numbered ∧ ∃ failure staging t₁ t',
      Ends (prepare renewal "in.db").start outdatedOutput.tree (.error failure, staging) t₁ ∧
      Ends staging.discard t₁ () t' ∧
      Ends (run renewal "in.db") outdatedOutput.tree (.error failure) t' ∧
      Unpublished outdatedOutput.tree t' := by
  have hnumbered : outdatedOutput.tree.Numbered := fun _ _ => rfl
  have hprepare := ends_of_run (prepare renewal "in.db").start outdatedOutput
  have hfails : ((prepare renewal "in.db").start.run outdatedOutput).1.1.isOk = false := by
    decide +kernel
  generalize ((prepare renewal "in.db").start.run outdatedOutput).1 = result at hprepare hfails
  obtain ⟨failure | _, staging⟩ := result
  · have hdiscard := ends_of_run staging.discard
      ((prepare renewal "in.db").start.run outdatedOutput).2
    have hall := unpublished_of_failure hnumbered hprepare hdiscard
    exact ⟨hnumbered, failure, staging, _, _, hprepare, hdiscard, hall⟩
  · exact nomatch hfails

end ChipAtlas.Job
