import ChipAtlas.Proofs.CommandLine.Job
import ChipAtlas.Proofs.RoundTrip

/-!
# The files of the catalogs

A job with a data folder writes one file for each catalog, named by the tile kind. A kind may have a
slash in its name, and then its file has an underscore instead. So the files of two catalogs can be
one and the same, and as the files are put to their places in the order of the catalogs, it has the
bits of the later one. The file of the database folder comes last of all; it can be put to the place
of a catalog only where the database folder lies around the data folder.

Everything rests on the order in which the outputs are put to their places: the last one at a place
is the one that is found there.

* `Catalog.fileName_inj` — kinds without a slash have files of their own;
* `Job.place_catalogPath_eq_iff` — two catalogs share their place if they share their file name;
* `Job.read_of_split` — the last catalog with a file name is found in the file;
* `Job.read_catalogPath_of_noSlash` — every catalog is, where no kind has a slash in its name.
-/

namespace ChipAtlas

open FileTree Staging ChipAtlas.Task

namespace Catalog

theorem toList_fileName (kind : String) : (fileName kind).toList =
    (kind.toList.map fun c => if c = '/' then '_' else c) ++ ['.', 'j', 's', 'o', 'n'] := by
  rw [fileName, String.toList_append, String.toList_ofList]
  rfl

theorem slash_notMem_fileName (kind : String) : '/' ∉ (fileName kind).toList := by
  rw [toList_fileName, List.mem_append, List.mem_map]
  rintro (⟨c, -, hc⟩ | hc)
  · split_ifs at hc with hslash
    · exact absurd hc (by decide)
    · exact hslash hc
  · exact absurd hc (by decide)

theorem five_le_length_fileName (kind : String) : 5 ≤ (fileName kind).toList.length := by
  rw [toList_fileName, List.length_append]
  exact Nat.le_add_left 5 _

theorem fileName_ne_of_length_lt {kind name : String} (h : name.toList.length < 5) :
    fileName kind ≠ name := by
  rintro rfl
  exact absurd (five_le_length_fileName kind) (Nat.not_le.2 h)

theorem isName_fileName (kind : String) : Path.IsName (fileName kind) :=
  ⟨fileName_ne_of_length_lt (by decide), slash_notMem_fileName kind⟩

/-- **File names.** Kinds without a slash have different file names. -/
theorem fileName_inj {kind kind' : String} (h : '/' ∉ kind.toList) (h' : '/' ∉ kind'.toList)
    (heq : fileName kind = fileName kind') : kind = kind' := by
  have hkept {kind : String} (h : '/' ∉ kind.toList) :
      (kind.toList.map fun c => if c = '/' then '_' else c) = kind.toList := by
    refine (List.map_congr_left fun c hc => if_neg ?_).trans (List.map_id' _)
    rintro rfl
    exact h hc
  rw [← String.toList_inj, toList_fileName, toList_fileName, hkept h, hkept h'] at heq
  exact String.toList_inj.1 (List.append_cancel_right heq)

end Catalog

namespace Job

variable {o : Options} {input folder : String} {t t' : FileTree} {db : Database}
  {outs : List (String × List UInt8)} {entry : String × Catalog}
  {before after : List (String × Catalog)}

/-! ### Places -/

theorem isAbsolute_of_slash_notMem {path : String} (h : '/' ∉ path.toList) :
    Path.isAbsolute path = false := by
  rw [Path.isAbsolute, decide_eq_false_iff_not]
  exact fun hhead => h (List.mem_of_mem_head? hhead)

/-- A catalog has its place in the directory of the bits. -/
theorem place_catalogPath (folder kind : String) : Path.place (catalogPath folder kind) =
    Path.place (Path.join folder "bits") ++ [Catalog.fileName kind] := by
  have hrelative := isAbsolute_of_slash_notMem (Catalog.slash_notMem_fileName kind)
  have hdot : Catalog.fileName kind ≠ "." := Catalog.fileName_ne_of_length_lt (by decide)
  have hup : Catalog.fileName kind ≠ ".." := Catalog.fileName_ne_of_length_lt (by decide)
  rw [catalogPath, Path.place, Path.pieces_join _ hrelative,
    (Catalog.isName_fileName kind).pieces_eq, Path.follow_append, Path.follow_singleton hdot hup]
  rfl

theorem place_catalogPath_eq_iff {kind kind' : String} :
    Path.place (catalogPath folder kind) = Path.place (catalogPath folder kind') ↔
      Catalog.fileName kind = Catalog.fileName kind' := by
  rw [place_catalogPath, place_catalogPath, List.append_cancel_left_eq, List.singleton_inj]

/-! ### The last output at a place -/

/-- The catalogs are put to their places behind all but the output in the database folder. -/
theorem exists_outputs_eq (hfolder : o.dataFolder = some folder)
    (hentries : db.catalogs.entries = before ++ entry :: after) (input : String)
    (dump : List UInt8) :
    ∃ front, outputs o input db dump =
      front ++ (catalogPath folder entry.1, bytesOf entry.2.toJson.pretty) ::
        (catalogOutputs folder after ++ databaseOutputs o input db) := by
  rw [outputs, dataOutputs, hfolder, hentries]
  refine ⟨wanted o.plainText dump ++ wanted o.tileGrid (gridBytes o db) ++
    wanted o.fuseMap (fuseBytes o db) ++ wanted o.cache db.toCacheFile ++
    (Path.join folder "tilegrid.json", gridBytes o db) :: catalogOutputs folder before, ?_⟩
  simp only [catalogOutputs, List.map_append, List.map_cons, List.append_assoc, List.cons_append]

/-- **The file of a catalog.** The catalog is found in it if no later one has the same file name,
unless the output in the database folder is put in its place. -/
theorem read_of_split (hfolder : o.dataFolder = some folder) (hcommits : Commits o input t db outs)
    (hpublished : Published .nobody outs t')
    (hentries : db.catalogs.entries = before ++ entry :: after)
    (hlast : ∀ later ∈ after, Catalog.fileName later.1 ≠ Catalog.fileName entry.1)
    (hspared : ∀ out ∈ databaseOutputs o input db,
      Path.place out.1 ≠ Path.place (catalogPath folder entry.1)) :
    t'.read (catalogPath folder entry.1) = .ok (bytesOf entry.2.toJson.pretty) := by
  obtain ⟨content, dump, -, -, rfl, -⟩ := hcommits
  obtain ⟨front, houts⟩ := exists_outputs_eq hfolder hentries input dump
  rw [houts] at hpublished
  refine hpublished.read (List.mem_append_right _ List.mem_cons_self)
    (lastAt_append_cons fun out hout => ?_) (Set.notMem_empty _)
    fun _ hput => absurd hput (Set.notMem_empty _)
  rcases List.mem_append.1 hout with hcatalog | hgrid
  · obtain ⟨later, hlater, rfl⟩ := List.mem_map.1 hcatalog
    exact fun heq => hlast later hlater (place_catalogPath_eq_iff.1 heq)
  · exact hspared out hgrid

/-- The last entry with a property. -/
theorem exists_last {α : Type} {p : α → Prop} {entries : List α} {a : α} (ha : a ∈ entries)
    (hp : p a) : ∃ before last after, entries = before ++ last :: after ∧ p last ∧
      ∀ later ∈ after, ¬p later := by
  induction entries using List.reverseRecOn with
  | nil => exact absurd ha List.not_mem_nil
  | append_singleton front b ih =>
    by_cases hb : p b
    · exact ⟨front, b, [], rfl, hb, nofun⟩
    · have hfront : a ∈ front := (List.mem_append.1 ha).resolve_right fun hmem =>
        hb (List.mem_singleton.1 hmem ▸ hp)
      obtain ⟨before, last, after, rfl, hlast, hafter⟩ := ih hfront
      refine ⟨before, last, after ++ [b], by simp, hlast, fun later hlater => ?_⟩
      rcases List.mem_append.1 hlater with hmem | hmem
      · exact hafter later hmem
      · exact List.mem_singleton.1 hmem ▸ hb

/-! ### Whole jobs -/

/-- A job that succeeds has put the outputs for its input to their places. -/
theorem exists_published (h : Ends (run o input) t (.ok ()) t') :
    ∃ db outs, Commits o input t db outs ∧ Published .nobody outs t' := by
  have hproceeds : Proceeds ⟨Set.univ, Set.univ, Set.univ⟩ .nobody _ (run o input) ∅ t :=
    proceeds_run (fun _ _ l _ => Set.mem_univ l) (fun _ _ _ out _ => Set.mem_univ _)
      (fun _ _ _ out _ => Set.mem_univ _) (spares_maker _ o input)
  obtain ⟨own', -, -, hgoal, -⟩ := hproceeds.exists_of_ends h
  obtain ⟨db, outs, hcommits, hmade, -⟩ := hgoal rfl
  exact ⟨db, outs, hcommits, hmade.published⟩

/-- Where no kind has a slash in its name, every catalog is found in its file. -/
theorem read_catalogPath_of_noSlash (hfolder : o.dataFolder = some folder)
    (hbase : o.databaseFolder = none) (h : Ends (run o input) t (.ok ()) t') :
    ∃ content db dump, t.node? (Path.place input) = some (.file content) ∧
      Decodes o content db dump ∧ ((∀ kind ∈ db.catalogs.keys, '/' ∉ kind.toList) →
        ∀ entry ∈ db.catalogs.entries,
          t'.read (catalogPath folder entry.1) = .ok (bytesOf entry.2.toJson.pretty)) := by
  obtain ⟨db, outs, hcommits, hpublished⟩ := exists_published h
  obtain ⟨content, dump, hcontent, hdecodes, -⟩ := id hcommits
  refine ⟨content, db, dump, hcontent, hdecodes, fun hslash entry hentry => ?_⟩
  obtain ⟨before, after, hentries⟩ := List.append_of_mem hentry
  refine read_of_split hfolder hcommits hpublished hentries (fun later hlater heq => ?_) ?_
  · -- the name of a kind occurs once, so the later one is another kind
    have hlaterMem : later ∈ db.catalogs.entries :=
      hentries ▸ List.mem_append_right _ (List.mem_cons_of_mem _ hlater)
    have hkind : later.1 = entry.1 := Catalog.fileName_inj
      (hslash _ (List.mem_map_of_mem hlaterMem)) (hslash _ (List.mem_map_of_mem hentry)) heq
    have hnodup := db.catalogs.nodup
    rw [hentries, List.map_append, List.map_cons] at hnodup
    have hnotMem := (List.nodup_cons.1 (List.nodup_append.1 hnodup).2.1).1
    exact hnotMem (hkind ▸ List.mem_map_of_mem hlater)
  · rw [databaseOutputs, hbase]
    exact fun _ hout => absurd hout List.not_mem_nil

/-- A job succeeds, and some catalog of its input is not what is found in the file of the
catalog. -/
def LosesCatalog (o : Options) (input folder : String) (t : FileTree) : Prop :=
  o.dataFolder = some folder ∧ ∃ t', Ends (run o input) t (.ok ()) t' ∧ ∃ content db dump,
    t.node? (Path.place input) = some (.file content) ∧ Decodes o content db dump ∧
    ∃ entry ∈ db.catalogs.entries,
      t'.read (catalogPath folder entry.1) ≠ .ok (bytesOf entry.2.toJson.pretty)

/-- Whether some catalog is not found when a job has run. -/
def missesCatalog (o : Options) (input folder : String) (d : Disk) : Bool :=
  match (run o input).run d, d.tree.node? (Path.place input) with
  | (.ok (), d'), some (.file content) =>
    match decode content (if o.plainText.isSome then some {} else none) with
    | .ok db _ => db.catalogs.entries.any fun entry =>
        d'.tree.read (catalogPath folder entry.1) ≠ .ok (bytesOf entry.2.toJson.pretty)
    | .error .. => false
  | _, _ => false

theorem losesCatalog_of_misses {d : Disk} (hfolder : o.dataFolder = some folder)
    (h : missesCatalog o input folder d = true) : LosesCatalog o input folder d.tree := by
  have hends := ends_of_run (run o input) d
  rw [missesCatalog] at h
  split at h
  next d' content hrun hcontent =>
    split at h
    next db reading hdecode =>
      obtain ⟨entry, hentry, hread⟩ := List.any_eq_true.1 h
      rw [hrun] at hends
      exact ⟨hfolder, d'.tree, hends, content, db, _, hcontent, ⟨reading, hdecode, rfl⟩, entry,
        hentry, of_decide_eq_true hread⟩
    next => exact nomatch h
  next => exact nomatch h

/-- An input with two catalogs that share their file name. -/
def sharedName : Disk where
  tree := ({} : FileTree).put ["in.db"] (.file (FileText.sparseFile
    [FileText.smallBlock "a/b" "b0", FileText.smallBlock "a_b" "b1"] FileText.bareCell).written)

/-- The files of its catalogs are wanted. -/
def toDataFolder : Options where
  inputs := ["in.db"]
  dataFolder := some "data"

theorem missesCatalog_sharedName : missesCatalog toDataFolder "in.db" "data" sharedName = true := by
  decide +kernel

/-- An input with a catalog whose file is also the one in the database folder. -/
def enclosed : Disk where
  tree := ({} : FileTree).put ["bits.db"] (.file (FileText.sparseFile
    [FileText.smallBlock "tilegrid" "b0"] FileText.bareCell).written)

/-- The data folder lies in the database folder. -/
def toBothFolders : Options where
  inputs := ["bits.db"]
  dataFolder := some "base/arch"
  databaseFolder := some "base"
  architecture := some "arch"

/-- **The files of the catalogs.** After a job with a data folder, the file of every catalog holds
the last of the catalogs that share its file name, unless the output in the database folder is put
in its place. -/
theorem read_catalogPath (hfolder : o.dataFolder = some folder)
    (h : Ends (run o input) t (.ok ()) t') :
    ∃ content db dump, t.node? (Path.place input) = some (.file content) ∧
      Decodes o content db dump ∧
      ∀ kind ∈ db.catalogs.keys, ∃ before last after,
        db.catalogs.entries = before ++ last :: after ∧
        Catalog.fileName last.1 = Catalog.fileName kind ∧
        (∀ later ∈ after, Catalog.fileName later.1 ≠ Catalog.fileName kind) ∧
        ((∀ out ∈ databaseOutputs o input db,
            Path.place out.1 ≠ Path.place (catalogPath folder kind)) →
          t'.read (catalogPath folder kind) = .ok (bytesOf last.2.toJson.pretty)) := by
  obtain ⟨db, outs, hcommits, hpublished⟩ := exists_published h
  obtain ⟨content, dump, hcontent, hdecodes, -⟩ := id hcommits
  refine ⟨content, db, dump, hcontent, hdecodes, fun kind hkind => ?_⟩
  obtain ⟨entry, hentry, rfl⟩ := List.mem_map.1 hkind
  have hlast := exists_last
    (p := fun e : String × Catalog => Catalog.fileName e.1 = Catalog.fileName entry.1) hentry rfl
  obtain ⟨before, last, after, hentries, hname, hafter⟩ := hlast
  refine ⟨before, last, after, hentries, hname, hafter, fun hspared => ?_⟩
  have hpath : catalogPath folder entry.1 = catalogPath folder last.1 := by
    rw [catalogPath, catalogPath, hname]
  rw [hpath] at hspared ⊢
  rw [← hname] at hafter
  exact read_of_split hfolder hcommits hpublished hentries hafter hspared

theorem read_catalogPath_sharedName :
    toDataFolder.dataFolder = some "data" ∧ ∃ t',
      Ends (run toDataFolder "in.db") sharedName.tree (.ok ()) t' ∧
      ∃ content db dump, sharedName.tree.node? (Path.place "in.db") = some (.file content) ∧
        Decodes toDataFolder content db dump ∧
        ∀ kind ∈ db.catalogs.keys, ∃ before last after,
          db.catalogs.entries = before ++ last :: after ∧
          Catalog.fileName last.1 = Catalog.fileName kind ∧
          (∀ later ∈ after, Catalog.fileName later.1 ≠ Catalog.fileName kind) ∧
          t'.read (catalogPath "data" kind) = .ok (bytesOf last.2.toJson.pretty) := by
  obtain ⟨hfolder, t', hends, -⟩ := losesCatalog_of_misses rfl missesCatalog_sharedName
  obtain ⟨content, db, dump, hcontent, hdecodes, hall⟩ := read_catalogPath hfolder hends
  refine ⟨hfolder, t', hends, content, db, dump, hcontent, hdecodes, fun kind hkind => ?_⟩
  obtain ⟨before, last, after, hentries, hname, hafter, hread⟩ := hall kind hkind
  -- nothing is wanted in a database folder
  exact ⟨before, last, after, hentries, hname, hafter,
    hread fun out hout => absurd hout List.not_mem_nil⟩

theorem losesCatalog_sharedName_enclosed :
    LosesCatalog toDataFolder "in.db" "data" sharedName.tree ∧
      LosesCatalog toBothFolders "bits.db" "base/arch" enclosed.tree :=
  ⟨losesCatalog_of_misses rfl missesCatalog_sharedName,
    losesCatalog_of_misses rfl (by decide +kernel)⟩

end Job

end ChipAtlas
