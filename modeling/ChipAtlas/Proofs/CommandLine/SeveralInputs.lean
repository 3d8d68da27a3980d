import ChipAtlas.CommandLine.Command
import ChipAtlas.Proofs.CommandLine.Job
import ChipAtlas.Proofs.GridText
import ChipAtlas.Proofs.RoundTrip

/-!
# Several inputs

The jobs of several inputs work on one file tree at the same time. The command lets them only make
tile grids in a database folder, one for each input. Where each goes is known only once its input is
decoded, and two of them can go to the same place: then the one that is put there last is found.
This is all that the jobs can do to each other. They make directories, which all of them may need,
but remove nothing, and a grid that is put to the place of another input does not pass for a
database.

* `Job.grid?` — the tile grid of an input, and where it goes;
* `Job.allMade_of_endTogether` — what is true at the end of every interleaving;
* `Job.AllMade.alike` — that it determines the end;
* `Job.endTogether_of_runJobs` — the command, which runs one job after the other, is one of the
  interleavings.
-/

namespace ChipAtlas

open FileTree Staging ChipAtlas.Task

/-- Trees with the same files, directories and temporary files. -/
structure FileTree.Alike (t t' : FileTree) : Prop where
  nodes : ∀ l, t.node? l = t'.node? l
  temps : ∀ id, t.temps.get? id = t'.temps.get? id

namespace Job

variable {o : Options} {input folder : String} {t t' t'' : FileTree} {db db' : Database}
  {outs outs' : List (String × List UInt8)} {i j : Fin o.inputs.length}

/-! ### The tile grids -/

/-- The tile grid that is made for an input, with the path that it goes to. -/
def grid? (o : Options) (t : FileTree) (folder input : String) : Option (String × List UInt8) :=
  match t.node? (Path.place input) with
  | some (.file content) =>
    match decode content (if o.plainText.isSome then some {} else none) with
    | .ok db _ =>
      match gridPath? o db input folder, db.tileGridText (o.layout.getD db.variant) with
      | some path, .ok text => some (path, bytesOf text)
      | _, _ => none
    | .error .. => none
  | _ => none

/-- Inputs whose tile grids go to the same place have the same tile grid. -/
def Compatible (o : Options) (t : FileTree) (folder : String) : Prop :=
  ∀ input ∈ o.inputs, ∀ other ∈ o.inputs, ∀ grid ∈ grid? o t folder input,
    ∀ grid' ∈ grid? o t folder other, Path.place grid.1 = Path.place grid'.1 → grid.2 = grid'.2

instance (o : Options) (t : FileTree) (folder : String) : Decidable (Compatible o t folder) :=
  inferInstanceAs (Decidable (∀ input ∈ o.inputs, ∀ other ∈ o.inputs,
    ∀ grid ∈ grid? o t folder input, ∀ grid' ∈ grid? o t folder other, _ → _))

/-- What an input is decoded to does not depend on the run. -/
theorem Decodes.unique {content dump dump' : List UInt8} (h : Decodes o content db dump)
    (h' : Decodes o content db' dump') : db = db' ∧ dump = dump' := by
  obtain ⟨s, hs, rfl⟩ := h
  obtain ⟨s', hs', rfl⟩ := h'
  obtain ⟨rfl, rfl⟩ := EStateM.Result.ok.inj (hs.symm.trans hs')
  exact ⟨rfl, rfl⟩

theorem Commits.unique (h : Commits o input t db outs) (h' : Commits o input t db' outs') :
    db = db' ∧ outs = outs' := by
  obtain ⟨content, dump, hcontent, hdecodes, rfl, -⟩ := h
  obtain ⟨content', dump', hcontent', hdecodes', rfl, -⟩ := h'
  obtain rfl := Node.file.inj (Option.some.inj (hcontent.symm.trans hcontent'))
  obtain ⟨rfl, rfl⟩ := hdecodes.unique hdecodes'
  exact ⟨rfl, rfl⟩

/-- The tile grid in the database folder is the last of the outputs. -/
theorem Commits.exists_grid (h : Commits o input t db outs)
    (hbase : o.databaseFolder = some folder) :
    ∃ front grid, outs = front ++ [grid] ∧ grid? o t folder input = some grid ∧
      IsTileGrid o db grid.2 := by
  obtain ⟨content, dump, hcontent, ⟨s, hdecode, -⟩, rfl, hknown⟩ := h
  obtain ⟨path, hpath, text, htext, hbytes⟩ := hknown folder hbase
  refine ⟨wanted o.plainText dump ++ wanted o.tileGrid (gridBytes o db) ++
    wanted o.fuseMap (fuseBytes o db) ++ wanted o.cache db.toCacheFile ++ dataOutputs o db,
    (path, gridBytes o db), ?_, ?_, text, htext, hbytes⟩
  · rw [outputs, databaseOutputs, hbase]
    simp only [hpath]
    rfl
  · rw [grid?, hcontent]
    simp only [hdecode, hpath, htext, hbytes]

/-- Without the outputs that are made once, it is the only one. -/
theorem Commits.eq_grid (h : Commits o input t db outs) (hbase : o.databaseFolder = some folder)
    (hsingle : o.hasSingleOutputs = false) :
    ∃ grid, outs = [grid] ∧ grid? o t folder input = some grid ∧ IsTileGrid o db grid.2 := by
  obtain ⟨front, grid, rfl, hgrid, htile⟩ := h.exists_grid hbase
  obtain ⟨-, dump, -, -, houts, -⟩ := h
  simp only [Options.hasSingleOutputs, Bool.or_eq_false_iff, Option.isSome_eq_false_iff,
    Option.isNone_iff_eq_none] at hsingle
  obtain ⟨⟨⟨⟨htileGrid, hplain⟩, hdata⟩, hfuses⟩, hcache⟩ := hsingle
  have hlength : (outputs o input db dump).length ≤ 1 := by
    rw [outputs, htileGrid, hplain, hfuses, hcache, dataOutputs, hdata, databaseOutputs, hbase]
    cases hpath : gridPath? o db input folder <;> simp [wanted, hpath]
  rw [← houts, List.length_append] at hlength
  obtain rfl : front = [] := List.eq_nil_of_length_eq_zero (by simpa using hlength)
  exact ⟨grid, rfl, hgrid, htile⟩

/-- A tile grid does not pass for a database. -/
theorem not_decodes_of_isTileGrid {bytes dump : List UInt8} (h : IsTileGrid o db bytes) :
    ¬Decodes o bytes db' dump := by
  obtain ⟨text, htext, rfl⟩ := h
  rintro ⟨s, hdecode, -⟩
  exact not_decode_tileGridText htext _ s hdecode

theorem exists_output_of_path {path : String} (dump : List UInt8) (h : path ∈ o.plainText.toList ++
    o.tileGrid.toList ++ o.fuseMap.toList ++ o.cache.toList) :
    ∃ bytes, (path, bytes) ∈ outputs o input db dump := by
  have hwanted {wantedPath : Option String} (bytes : List UInt8) (h : path ∈ wantedPath.toList) :
      (path, bytes) ∈ wanted wantedPath bytes := List.mem_map_of_mem h
  simp only [List.mem_append] at h
  simp only [outputs, List.mem_append]
  rcases h with ((hplain | hgrid) | hfuses) | hcache
  · exact ⟨dump, .inl (.inl (.inl (.inl (.inl (hwanted _ hplain)))))⟩
  · exact ⟨gridBytes o db, .inl (.inl (.inl (.inl (.inr (hwanted _ hgrid)))))⟩
  · exact ⟨fuseBytes o db, .inl (.inl (.inl (.inr (hwanted _ hfuses))))⟩
  · exact ⟨db.toCacheFile, .inl (.inl (.inr (hwanted _ hcache)))⟩

/-- Every folder that a job opens is checked, or an output goes to it. -/
theorem Opens.checked_or_out {opened : String} (h : Opens o input t opened)
    (hcommits : Commits o input t db outs) :
    opened ∈ checkedFolders o ∨ ∃ out ∈ outs, opened = Path.folder out.1 := by
  obtain ⟨content, dump, hcontent, hdecodes, rfl, -⟩ := hcommits
  have hlateOut {out : String × List UInt8}
      (hout : out ∈ dataOutputs o db ++ databaseOutputs o input db) :
      out ∈ outputs o input db dump := by
    rw [outputs]
    rcases List.mem_append.1 hout with hdata | hbase
    · exact List.mem_append_left _ (List.mem_append_right _ hdata)
    · exact List.mem_append_right _ hbase
  rcases h with hearly | ⟨content', db', dump', hcontent', hdecodes', hlate⟩
  · rcases List.mem_append.1 hearly with hmapped | hchecked
    · obtain ⟨path, hpath, rfl⟩ := List.mem_map.1 hmapped
      obtain ⟨bytes, hout⟩ := exists_output_of_path dump hpath
      exact .inr ⟨(path, bytes), hout, rfl⟩
    · exact .inl hchecked
  · obtain rfl := Node.file.inj (Option.some.inj (hcontent.symm.trans hcontent'))
    obtain ⟨rfl, -⟩ := hdecodes.unique hdecodes'
    obtain ⟨out, hout, rfl⟩ := List.mem_map.1 hlate
    exact .inr ⟨out, hlateOut hout, rfl⟩

/-! ### The parties -/

/-- The job of each input. -/
def jobs (o : Options) (i : Fin o.inputs.length) : Task (Except JobFailure Unit) :=
  run o (o.inputs.get i)

/-- What the job of an input may do to the tree, by what lies at the place of the input at the
start. -/
def partyOf (o : Options) (t : FileTree) (input : String) : Party where
  ways := {l | ∃ folder, Opens o input t folder ∧ l ∈ Path.way folder}
  outputs := {put | ∃ db outs, Commits o input t db outs ∧
    ∃ out ∈ outs, put = (Path.place out.1, out.2)}
  removals := {l | ∃ db outs, Commits o input t db outs ∧ ∃ out ∈ outs.dropLast,
    l = Path.place out.1}

/-- The party of each job. -/
def parties (o : Options) (t : FileTree) (i : Fin o.inputs.length) : Party :=
  partyOf o t (o.inputs.get i)

/-- What the other jobs may do. -/
def others (o : Options) (t : FileTree) (i : Fin o.inputs.length) : Party :=
  Party.among (parties o t) {i}ᶜ

/-- Outputs that are made once are wanted of one input at most. -/
def Accepted (o : Options) : Prop := ¬(1 < o.inputs.length ∧ o.hasSingleOutputs = true)

theorem Accepted.hasSingleOutputs_eq (h : Accepted o) (hne : j ≠ i) :
    o.hasSingleOutputs = false := by
  refine Bool.eq_false_iff.2 fun hsingle => h ⟨?_, hsingle⟩
  have hi := i.isLt
  have hj := j.isLt
  have hval : j.val ≠ i.val := fun heq => hne (Fin.ext heq)
  omega

/-- **Other jobs** put nothing but tile grids. -/
theorem exists_grid_of_others (haccepted : Accepted o) (hbase : o.databaseFolder = some folder)
    {l : Location} {bytes : List UInt8} (h : (l, bytes) ∈ (others o t i).outputs) :
    o.hasSingleOutputs = false ∧ ∃ j path, grid? o t folder (o.inputs.get j) = some (path, bytes) ∧
      Path.place path = l ∧ ∃ db, IsTileGrid o db bytes := by
  obtain ⟨j, hj, db, outs, hcommits, out, hout, heq⟩ := h
  have hsingle := haccepted.hasSingleOutputs_eq hj
  obtain ⟨grid, rfl, hgrid, htile⟩ := hcommits.eq_grid hbase hsingle
  obtain rfl := List.mem_singleton.1 hout
  obtain ⟨rfl, rfl⟩ := Prod.mk.inj heq
  exact ⟨hsingle, j, out.1, hgrid, rfl, db, htile⟩

/-- They remove nothing. -/
theorem notMem_removals_others (haccepted : Accepted o) (hbase : o.databaseFolder = some folder)
    (l : Location) : l ∉ (others o t i).removals := by
  rintro ⟨j, hj, db, outs, hcommits, out, hout, -⟩
  obtain ⟨grid, rfl, -⟩ := hcommits.eq_grid hbase (haccepted.hasSingleOutputs_eq hj)
  exact List.not_mem_nil hout

theorem spares_others (haccepted : Accepted o) (hbase : o.databaseFolder = some folder) :
    Spares (others o t i) o (o.inputs.get i) := by
  intro content hput db dump
  obtain ⟨-, -, -, -, -, db', htile⟩ := exists_grid_of_others haccepted hbase hput
  exact not_decodes_of_isTileGrid htile

/-! ### The end of an interleaving -/

/-- What is true when all jobs have succeeded. -/
structure AllMade (o : Options) (t t' : FileTree) : Prop where
  made : ∀ i, ∃ db outs, Commits o (o.inputs.get i) t db outs ∧ Made (others o t i) o outs t'
  nodes : ∀ l, (Party.among (parties o t) Set.univ).Leads l (t.node? l) (t'.node? l)
  temps : ∀ id, t'.temps.get? id = t.temps.get? id

/-- **Every interleaving** of jobs that all succeed ends so. -/
theorem allMade_of_endTogether (haccepted : Accepted o) (hbase : o.databaseFolder = some folder)
    (hnumbered : t.Numbered) (h : EndTogether (jobs o) t (fun _ => .ok ()) t') :
    AllMade o t t' := by
  have hproceeds (i) : Proceeds (parties o t i) (others o t i) _ (jobs o i) ∅ t :=
    proceeds_run (fun folder hopens l hl => ⟨folder, hopens, hl⟩)
      (fun db outs hcommits out hout => ⟨db, outs, hcommits, out, hout, rfl⟩)
      (fun db outs hcommits out hout => ⟨db, outs, hcommits, out, hout, rfl⟩)
      (spares_others haccepted hbase)
  obtain ⟨owns, -, hnew, hgoals, hchanges⟩ := Proceeds.exists_of_endTogether hproceeds
    ⟨fun _ _ hid => absurd hid (Set.notMem_empty _),
      fun _ _ _ _ hid => absurd hid (Set.notMem_empty _)⟩ h
  refine ⟨fun i => ?_, hchanges.nodes, fun id => ?_⟩
  · obtain ⟨db, outs, hcommits, hmade, -⟩ := hgoals i rfl
    exact ⟨db, outs, hcommits, hmade⟩
  · by_cases hid : id ∈ ⋃ i, owns i
    · obtain ⟨i, hi⟩ := Set.mem_iUnion.1 hid
      obtain ⟨-, -, -, -, hgone⟩ := hgoals i rfl
      rw [hgone id hi, hnumbered id ((hnew i id hi).resolve_left (Set.notMem_empty id))]
    · exact hchanges.temps id hid

namespace AllMade

/-- The directories that the jobs need are there. -/
theorem eq_dir (h : AllMade o t t') {l : Location} (hl : l ∈ (parties o t i).ways) :
    t'.node? l = some .dir := by
  obtain ⟨opened, hopens, hl⟩ := hl
  obtain ⟨db, outs, hcommits, hmade⟩ := h.made i
  rcases hopens.checked_or_out hcommits with hchecked | ⟨out, hout, rfl⟩
  · exact (hmade.checked opened hchecked).dirs l hl
  · exact (hmade.folders out hout).dirs l hl

/-- Every output is at its place. -/
theorem eq_file (h : AllMade o t t') (haccepted : Accepted o)
    (hbase : o.databaseFolder = some folder) (hcompatible : Compatible o t folder)
    (hcommits : Commits o (o.inputs.get i) t db outs) {l : Location} {bytes : List UInt8}
    (hlast : lastAt outs l = some bytes) : t'.node? l = some (.file bytes) := by
  obtain ⟨db', outs', hcommits', hmade⟩ := h.made i
  obtain ⟨rfl, rfl⟩ := hcommits.unique hcommits'
  refine (hmade.published.nodes l bytes hlast).eq_file (notMem_removals_others haccepted hbase l)
    fun put hput => ?_
  -- what another job puts there is its tile grid, and so is what this job has put there
  obtain ⟨hsingle, j, path, hgrid', hplace, -⟩ := exists_grid_of_others haccepted hbase hput
  obtain ⟨grid, rfl, hgrid, -⟩ := hcommits.eq_grid hbase hsingle
  obtain ⟨hat, rfl⟩ : Path.place grid.1 = l ∧ grid.2 = bytes := by
    rw [← List.nil_append [grid], lastAt_append_singleton] at hlast
    split at hlast
    next hat => exact ⟨hat, Option.some.inj hlast⟩
    next => exact nomatch hlast
  exact (hcompatible _ (List.get_mem _ i) _ (List.get_mem _ j) grid hgrid (path, put) hgrid'
    (hat.trans hplace.symm)).symm

/-- Everything else is as it was. -/
theorem eq_start (h : AllMade o t t') {l : Location} (hways : ∀ i, l ∉ (parties o t i).ways)
    (houts : ∀ i db outs, Commits o (o.inputs.get i) t db outs → lastAt outs l = none) :
    t'.node? l = t.node? l := by
  refine (h.nodes l).eq_self ?_ ?_ ?_
  · rintro ⟨i, -, hl⟩
    exact hways i hl
  · rintro bytes ⟨i, -, db, outs, hcommits, out, hout, heq⟩
    exact lastAt_eq_none_iff.1 (houts i db outs hcommits) out hout (Prod.mk.inj heq).1.symm
  · rintro ⟨i, -, db, outs, hcommits, out, hout, heq⟩
    exact lastAt_eq_none_iff.1 (houts i db outs hcommits) out (List.dropLast_subset _ hout)
      heq.symm

/-- The tile grid of every input is found at its path. -/
theorem read_eq (h : AllMade o t t') (haccepted : Accepted o)
    (hbase : o.databaseFolder = some folder) (hcompatible : Compatible o t folder)
    (hinput : input ∈ o.inputs) : ∃ grid ∈ grid? o t folder input, t'.read grid.1 = .ok grid.2 := by
  obtain ⟨i, rfl⟩ := List.get_of_mem hinput
  obtain ⟨db, outs, hcommits, hmade⟩ := h.made i
  obtain ⟨front, grid, rfl, hgrid, -⟩ := hcommits.exists_grid hbase
  have hlast : lastAt (front ++ [grid]) (Path.place grid.1) = some grid.2 :=
    lastAt_append_cons fun _ hmem => absurd hmem List.not_mem_nil
  obtain ⟨hends, hslash⟩ :=
    hmade.published.ends grid (List.mem_append_right _ (List.mem_singleton_self grid))
  exact ⟨grid, hgrid, read_eq_ok_iff.2 (lookup_eq_file_iff.2
    ⟨hslash, _, hends, h.eq_file haccepted hbase hcompatible hcommits hlast⟩)⟩

/-- **All interleavings** end alike. -/
theorem alike (h : AllMade o t t') (h' : AllMade o t t'') (haccepted : Accepted o)
    (hbase : o.databaseFolder = some folder) (hcompatible : Compatible o t folder) :
    t'.Alike t'' := by
  refine ⟨fun l => ?_, fun id => (h.temps id).trans (h'.temps id).symm⟩
  by_cases hways : ∃ i, l ∈ (parties o t i).ways
  · obtain ⟨i, hl⟩ := hways
    rw [h.eq_dir hl, h'.eq_dir hl]
  by_cases houts : ∃ i db outs bytes,
      Commits o (o.inputs.get i) t db outs ∧ lastAt outs l = some bytes
  · obtain ⟨i, db, outs, bytes, hcommits, hlast⟩ := houts
    rw [h.eq_file haccepted hbase hcompatible hcommits hlast,
      h'.eq_file haccepted hbase hcompatible hcommits hlast]
  -- nothing is put here
  have hways (i) : l ∉ (parties o t i).ways := fun hl => hways ⟨i, hl⟩
  have houts (i db outs) (hcommits : Commits o (o.inputs.get i) t db outs) :
      lastAt outs l = none := by
    cases hlast : lastAt outs l with
    | none => rfl
    | some bytes => exact absurd ⟨i, db, outs, bytes, hcommits, hlast⟩ houts
  rw [h.eq_start hways houts, h'.eq_start hways houts]

end AllMade

/-! ### One job after the other -/

/-- The command runs the jobs one after the other. If none fails, this is one interleaving. -/
theorem endInTurn_of_runJobs {order : List (Fin o.inputs.length)}
    (h : Ends (Command.runJobs o (order.map o.inputs.get)) t [] t') :
    EndInTurn (jobs o) (fun _ => .ok ()) order t t' := by
  induction order generalizing t with
  | nil =>
    obtain ⟨-, rfl⟩ := ends_pure_iff.1 h
    exact .nil
  | cons i order ih =>
    obtain ⟨result, t₁, hjob, hrest⟩ := ends_bind_iff.1 h
    cases result with
    | ok _ => exact .cons hjob (ih hrest)
    | error failure =>
      obtain ⟨failures, t₂, -, hlast⟩ := ends_bind_iff.1 hrest
      exact nomatch (ends_pure_iff.1 hlast).1

/-- Whatever the order is in which the inputs are taken. -/
theorem endTogether_of_runJobs (order : List (Fin o.inputs.length)) {inputs : List String}
    (horder : order.Perm (List.finRange _)) (hinputs : order.map o.inputs.get = inputs)
    (h : Ends (Command.runJobs o inputs) t [] t') :
    EndTogether (jobs o) t (fun _ => .ok ()) t' := by
  subst hinputs
  refine (endInTurn_of_runJobs h).endTogether (horder.nodup_iff.2 (List.nodup_finRange _)) ?_
  exact fun i hi => absurd (horder.mem_iff.2 (List.mem_finRange i)) hi

/-- The order of the command is one of them. -/
theorem endTogether_of_runJobs_inputs (h : Ends (Command.runJobs o o.inputs) t [] t') :
    EndTogether (jobs o) t (fun _ => .ok ()) t' :=
  endTogether_of_runJobs _ (.refl _) (List.map_get_finRange _) h

/-- Two inputs with different tile grids, the second one under a given name. -/
def twoChips (name : String) : Disk where
  tree := (((({} : FileTree).put ["a"] .dir).put ["b"] .dir).put ["a", "x.db"]
    (.file (FileText.sparseFile [] FileText.bareCell).written)).put ["b", name]
    (.file (FileText.sparseFile [] FileText.tiledCell).written)

/-- Both are to be decoded into a database folder. -/
def bothInto (name : String) : Options where
  inputs := ["a/x.db", "b/" ++ name]
  databaseFolder := some "out"
  architecture := some "arch"

/-- The inputs, decoded one after the other. -/
def decoded (o : Options) (inputs : List String) (d : Disk) : List (String × JobFailure) × Disk :=
  (Command.runJobs o inputs).run d

theorem ends_of_decoded {inputs : List String} {d : Disk} (h : (decoded o inputs d).1 = []) :
    Ends (Command.runJobs o inputs) d.tree [] (decoded o inputs d).2.tree := by
  rw [← h]
  exact ends_of_run _ _

/-- Under two names both are decoded. -/
theorem decoded_twoNames :
    (decoded (bothInto "y.db") (bothInto "y.db").inputs (twoChips "y.db")).1 = [] ∧
      Compatible (bothInto "y.db") (twoChips "y.db").tree "out" := by
  decide +kernel

/-- Under one name both are decoded, too, in either order, and the one that is decoded last is
found. -/
theorem decoded_sameName :
    (decoded (bothInto "x.db") (bothInto "x.db").inputs (twoChips "x.db")).1 = [] ∧
    (decoded (bothInto "x.db") (bothInto "x.db").inputs.reverse (twoChips "x.db")).1 = [] ∧
    (∃ grid ∈ grid? (bothInto "x.db") (twoChips "x.db").tree "out" "a/x.db",
      (decoded (bothInto "x.db") (bothInto "x.db").inputs (twoChips "x.db")).2.tree.read grid.1 ≠
        .ok grid.2) ∧
    (decoded (bothInto "x.db") (bothInto "x.db").inputs (twoChips "x.db")).2.tree.node?
        ["out", "arch", "x", "tilegrid.json"] ≠
      (decoded (bothInto "x.db") (bothInto "x.db").inputs.reverse (twoChips "x.db")).2.tree.node?
        ["out", "arch", "x", "tilegrid.json"] := by
  decide +kernel

/-- **Several inputs.** When jobs that make tile grids in a database folder all succeed, the tile
grid of every input is found at its path, and all interleavings end alike, unless different tile
grids go to the same place. -/
theorem read_grids_of_endTogether (haccepted : Accepted o) (hbase : o.databaseFolder = some folder)
    (hcompatible : Compatible o t folder) (hnumbered : t.Numbered)
    (h : EndTogether (jobs o) t (fun _ => .ok ()) t') :
    (∀ input ∈ o.inputs, ∃ grid ∈ grid? o t folder input, t'.read grid.1 = .ok grid.2) ∧
      ∀ t'', EndTogether (jobs o) t (fun _ => .ok ()) t'' → t'.Alike t'' := by
  have hmade := allMade_of_endTogether haccepted hbase hnumbered h
  refine ⟨fun input => hmade.read_eq haccepted hbase hcompatible, fun t'' h' => ?_⟩
  exact hmade.alike (allMade_of_endTogether haccepted hbase hnumbered h') haccepted hbase
    hcompatible

theorem read_grids_of_endTogether_twoChips :
    Accepted (bothInto "y.db") ∧ (bothInto "y.db").databaseFolder = some "out" ∧
      Compatible (bothInto "y.db") (twoChips "y.db").tree "out" ∧
      (twoChips "y.db").tree.Numbered ∧
      ∃ t', EndTogether (jobs (bothInto "y.db")) (twoChips "y.db").tree (fun _ => .ok ()) t' ∧
        ∀ input ∈ (bothInto "y.db").inputs,
          ∃ grid ∈ grid? (bothInto "y.db") (twoChips "y.db").tree "out" input,
            t'.read grid.1 = .ok grid.2 := by
  have haccepted : Accepted (bothInto "y.db") := fun h => nomatch h.2
  have hnumbered : (twoChips "y.db").tree.Numbered := fun _ _ => rfl
  obtain ⟨hdecoded, hcompatible⟩ := decoded_twoNames
  have hends := endTogether_of_runJobs_inputs (ends_of_decoded hdecoded)
  have hall := read_grids_of_endTogether haccepted rfl hcompatible hnumbered hends
  exact ⟨haccepted, rfl, hcompatible, hnumbered, _, hends, hall.1⟩

theorem grid_lost_twoChips :
    Accepted (bothInto "x.db") ∧ (bothInto "x.db").inputs.Nodup ∧ ∃ t' t'',
      EndTogether (jobs (bothInto "x.db")) (twoChips "x.db").tree (fun _ => .ok ()) t' ∧
      EndTogether (jobs (bothInto "x.db")) (twoChips "x.db").tree (fun _ => .ok ()) t'' ∧
      (∃ grid ∈ grid? (bothInto "x.db") (twoChips "x.db").tree "out" "a/x.db",
        t'.read grid.1 ≠ .ok grid.2) ∧ ¬t'.Alike t'' := by
  have haccepted : Accepted (bothInto "x.db") := fun h => nomatch h.2
  obtain ⟨hfirst, hsecond, hlost, hother⟩ := decoded_sameName
  have hends := endTogether_of_runJobs_inputs (ends_of_decoded hfirst)
  have hreverse : (List.finRange _).reverse.map (bothInto "x.db").inputs.get =
      (bothInto "x.db").inputs.reverse := by
    rw [List.map_reverse, List.map_get_finRange]
  have hends' := endTogether_of_runJobs _ (List.reverse_perm _) hreverse (ends_of_decoded hsecond)
  exact ⟨haccepted, by decide, _, _, hends, hends', hlost,
    fun halike => hother (halike.nodes _)⟩

end Job

end ChipAtlas
