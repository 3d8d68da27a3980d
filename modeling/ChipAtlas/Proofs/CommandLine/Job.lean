import ChipAtlas.CommandLine.Job
import ChipAtlas.Proofs.Files.Staged
import Mathlib.Tactic.Tauto

/-!
# What a job makes

The outputs of a job are a function of the options, of the decoded database and of the plaintext
dump (`Job.outputs`): their paths and their bytes, in the order in which they are staged. Here the
job is followed from step to step, while other tasks work on the same tree. Up to the complete
staged outputs it makes nothing but directories, on ways that its options and its input file give
(`Job.proceeds_prepare`); if it succeeds, all its outputs are at their places in the end
(`Job.proceeds_run`).

The input file is read in the midst of this. The others may put files, but none that can be decoded
to the place of the input (`Job.Spares`), so a job that decodes its input has read what lay there at
the start.
-/

namespace ChipAtlas.Job

open FileTree Staging

variable {me env : Party} {o : Options} {input : String} {s : Staging} {own : Set TempId}
  {t t₀ : FileTree} {db : Database} {content dump : List UInt8}
  {held front back : List (Staged × List UInt8)}

/-! ### Outputs -/

/-- The content of an input file, with the database and the plaintext dump that a job decodes it
to. -/
def Decodes (o : Options) (content : List UInt8) (db : Database) (dump : List UInt8) : Prop :=
  ∃ s, decode content (if o.plainText.isSome then some {} else none) = .ok db s ∧
    dump = (s.dump.getD {}).bytes.toList

/-- The bytes of the tile grid that a job exports, if the grid can be exported. -/
def gridBytes (o : Options) (db : Database) : List UInt8 :=
  match db.tileGridText (o.layout.getD db.variant) with
  | .ok text => bytesOf text
  | .error _ => []

/-- Bytes are the exported tile grid of a database, in the wanted layout. -/
def IsTileGrid (o : Options) (db : Database) (bytes : List UInt8) : Prop :=
  ∃ text, db.tileGridText (o.layout.getD db.variant) = .ok text ∧ bytes = bytesOf text

theorem IsTileGrid.eq_gridBytes {bytes : List UInt8} (h : IsTileGrid o db bytes) :
    bytes = gridBytes o db := by
  obtain ⟨text, htext, rfl⟩ := h
  rw [gridBytes, htext]

/-- The bytes of the fuse map, if it can be made. -/
def fuseBytes (o : Options) (db : Database) : List UInt8 :=
  match db.fuseMap o.correctColumns with
  | .ok map => bytesOf map.render
  | .error _ => []

/-- The path of the tile grid in a database folder, if the architecture and the part are known. -/
def gridPath? (o : Options) (db : Database) (input folder : String) : Option String := do
  let architecture ← o.architecture <|> db.archName
  let part ← Path.stem? input
  return Path.join (Path.join (Path.join folder architecture) part) "tilegrid.json"

/-- The path of the file of a catalog in a data folder. -/
def catalogPath (folder kind : String) : String :=
  Path.join (Path.join folder "bits") (Catalog.fileName kind)

/-- An output that may not be wanted. -/
def wanted (path : Option String) (bytes : List UInt8) : List (String × List UInt8) :=
  path.toList.map fun path => (path, bytes)

/-- The files of catalogs. -/
def catalogOutputs (folder : String) (catalogs : List (String × Catalog)) :
    List (String × List UInt8) :=
  catalogs.map fun (kind, catalog) => (catalogPath folder kind, bytesOf catalog.toJson.pretty)

/-- The outputs in the data folder. -/
def dataOutputs (o : Options) (db : Database) : List (String × List UInt8) :=
  match o.dataFolder with
  | none => []
  | some folder => (Path.join folder "tilegrid.json", gridBytes o db) ::
      catalogOutputs folder db.catalogs.entries

/-- The output in the database folder. -/
def databaseOutputs (o : Options) (input : String) (db : Database) : List (String × List UInt8) :=
  match o.databaseFolder with
  | none => []
  | some folder => wanted (gridPath? o db input folder) (gridBytes o db)

/-- All outputs, in the order in which they are staged. -/
def outputs (o : Options) (input : String) (db : Database) (dump : List UInt8) :
    List (String × List UInt8) :=
  wanted o.plainText dump ++ wanted o.tileGrid (gridBytes o db) ++
    wanted o.fuseMap (fuseBytes o db) ++ wanted o.cache db.toCacheFile ++
    dataOutputs o db ++ databaseOutputs o input db

/-! ### Outputs that may not be wanted -/

/-- The staged output for a path that may not be wanted, with what has been written to it. -/
def slot (output : Option Staged) (bytes : List UInt8) : List (Staged × List UInt8) :=
  output.toList.map fun output => (output, bytes)

theorem outputs_slot {output : Option Staged} {path : Option String}
    (h : output.map (·.path) = path) (bytes : List UInt8) :
    Staging.outputs (slot output bytes) = wanted path bytes := by
  subst h
  cases output <;> rfl

theorem proceeds_stageWanted {path : Option String}
    (hways : ∀ p ∈ path, ∀ l ∈ Path.way (Path.folder p), l ∈ me.ways) (h : Carries held s own t) :
    Work.Proceeds me env (fun output s own t => output.map (·.path) = path ∧
      Carries (held ++ slot output []) s own t) Complete (stageWanted path) s own t := by
  cases path with
  | none =>
    refine Work.proceeds_pure fun t' henv => ⟨rfl, ?_⟩
    rw [slot, Option.toList_none, List.map_nil, List.append_nil]
    exact h.after henv
  | some path =>
    refine Work.proceeds_map ((proceeds_stage JobFailure.io (hways path rfl) h).mono ?_)
    rintro output s own t ⟨rfl, hcarries⟩
    exact ⟨rfl, hcarries⟩

theorem proceeds_checkWanted {folder : Option String}
    (hways : ∀ p ∈ folder, ∀ l ∈ Path.way p, l ∈ me.ways) (h : Carries held s own t) :
    Work.Proceeds me env (fun _ s own t => Carries held s own t ∧
      ∀ p ∈ folder, t.Open [] (Path.pieces p)) Complete (checkWanted folder) s own t := by
  cases folder with
  | none => exact Work.proceeds_pure fun t' henv => ⟨h.after henv, nofun⟩
  | some folder =>
    refine Work.proceeds_demand ((proceeds_checkDir (hways folder rfl) h).mono ?_)
    intro r own t hr
    cases r with
    | error e => exact hr.1.complete
    | ok _ =>
      refine ⟨hr.1, fun p hp => ?_⟩
      rw [← Option.some.inj hp]
      exact hr.2 rfl

/-- A step that makes certain bytes, or fails, and stages nothing. -/
def Makes (me env : Party) (step : Step (List UInt8)) (bytes : List UInt8) : Prop :=
  ∀ held s own t, Carries held s own t → Work.Proceeds me env
    (fun made s own t => made = bytes ∧ Carries held s own t) Complete step s own t

theorem makes_pure (bytes : List UInt8) : Makes me env (pure bytes) bytes :=
  fun _ _ _ _ h => Work.proceeds_pure fun _ henv => ⟨rfl, h.after henv⟩

theorem proceeds_writeWanted {output : Option Staged} {step : Step (List UInt8)}
    {bytes : List UInt8} (hstep : Makes me env step bytes)
    (h : Carries (front ++ slot output [] ++ back) s own t) :
    Work.Proceeds me env (fun _ s own t => Carries (front ++ slot output bytes ++ back) s own t)
      Complete (writeWanted output step) s own t := by
  cases output with
  | none => exact Work.proceeds_pure fun t' henv => h.after henv
  | some output =>
    refine Work.Proceeds.andThen (hstep _ s own t h) fun made s own t hmade => ?_
    obtain ⟨rfl, hcarries⟩ := hmade
    rw [List.append_assoc] at hcarries ⊢
    exact proceeds_write JobFailure.io made hcarries

/-! ### What is written -/

theorem proceeds_notes (events : List Event) (h : Carries held s own t) :
    Task.Proceeds me env (fun _ own t => Carries held s own t) (Task.notes events) own t := by
  induction events with
  | nil => exact .done fun t' henv => h.after henv
  | cons event events ih => exact .note ih

theorem proceeds_noted (events : List Event) (h : Carries held s own t) :
    Work.Proceeds me env (fun _ s own t => Carries held s own t) Complete
      (Work.ask (Task.notes events) : Step Unit) s own t :=
  Work.proceeds_ask (proceeds_notes events h)

theorem proceeds_checked {α : Type} (c : Checked α) (h : Carries held s own t) :
    Work.Proceeds me env (fun a s own t => c = .ok a ∧ Carries held s own t) Complete
      (checked c) s own t := by
  cases c with
  | ok a => exact Work.proceeds_pure fun t' henv => ⟨rfl, h.after henv⟩
  | error index => exact Work.proceeds_throw fun t' henv => (h.after henv).complete

theorem proceeds_tileGridBytes (o : Options) (db : Database) (h : Carries held s own t) :
    Work.Proceeds me env (fun made s own t => IsTileGrid o db made ∧ Carries held s own t) Complete
      (tileGridBytes db (o.layout.getD db.variant)) s own t :=
  Work.proceeds_map ((proceeds_checked _ h).mono fun text _ _ _ hmade =>
    ⟨⟨text, hmade.1, rfl⟩, hmade.2⟩)

theorem makes_tileGridBytes (o : Options) (db : Database) :
    Makes me env (tileGridBytes db (o.layout.getD db.variant)) (gridBytes o db) :=
  fun _ _ _ _ h => (proceeds_tileGridBytes o db h).mono fun _ _ _ _ hmade =>
    ⟨hmade.1.eq_gridBytes, hmade.2⟩

theorem makes_fuseMapBytes (o : Options) (db : Database) :
    Makes me env (fuseMapBytes db o.correctColumns) (fuseBytes o db) := by
  intro held s own t h
  refine (proceeds_checked _ h).andThen fun map s own t hmade => ?_
  obtain ⟨hmap, hcarries⟩ := hmade
  refine (proceeds_noted _ hcarries).andThen fun _ s own t hnoted => ?_
  refine Work.proceeds_pure fun t' henv => ⟨?_, hnoted.after henv⟩
  rw [fuseBytes, hmap]

/-- By induction on the catalogs. -/
theorem proceeds_writeCatalogs {folder : String} {catalogs : List (String × Catalog)}
    (hways : ∀ out ∈ catalogOutputs folder catalogs,
      ∀ l ∈ Path.way (Path.folder out.1), l ∈ me.ways) (h : Carries held s own t) :
    Work.Proceeds me env (fun _ s own t => ∃ more, Carries (held ++ more) s own t ∧
      Staging.outputs more = catalogOutputs folder catalogs) Complete
      (writeCatalogs folder catalogs) s own t := by
  induction catalogs generalizing held s own t with
  | nil =>
    refine Work.proceeds_pure fun t' henv => ⟨[], ?_, rfl⟩
    rw [List.append_nil]
    exact h.after henv
  | cons first rest ih =>
    obtain ⟨kind, catalog⟩ := first
    obtain ⟨hfirst, hrest⟩ := List.forall_mem_cons.1 hways
    refine (proceeds_stage JobFailure.io hfirst h).andThen fun output s own t hmid => ?_
    obtain ⟨hpath, hstaged⟩ := hmid
    refine (proceeds_write JobFailure.io _ hstaged).andThen fun _ s own t hwritten => ?_
    refine (ih hrest hwritten).mono fun _ s own t hmore => ?_
    obtain ⟨more, hcarries, houtputs⟩ := hmore
    refine ⟨(output, bytesOf catalog.toJson.pretty) :: more, ?_, ?_⟩
    · rw [List.append_assoc] at hcarries
      exact hcarries
    · rw [Staging.outputs, List.map_cons, hpath]
      exact congrArg _ houtputs

theorem proceeds_writeDataFolder {folder : String}
    (hways : ∀ out ∈ (Path.join folder "tilegrid.json", gridBytes o db) ::
      catalogOutputs folder db.catalogs.entries,
      ∀ l ∈ Path.way (Path.folder out.1), l ∈ me.ways) (h : Carries held s own t) :
    Work.Proceeds me env (fun _ s own t => ∃ more, Carries (held ++ more) s own t ∧
      Staging.outputs more = (Path.join folder "tilegrid.json", gridBytes o db) ::
        catalogOutputs folder db.catalogs.entries) Complete
      (writeDataFolder db (o.layout.getD db.variant) folder) s own t := by
  obtain ⟨hfirst, hrest⟩ := List.forall_mem_cons.1 hways
  refine (proceeds_stage JobFailure.io hfirst h).andThen fun output s own t hmid => ?_
  obtain ⟨hpath, hstaged⟩ := hmid
  refine Work.Proceeds.andThen (makes_tileGridBytes o db _ s own t hstaged)
    fun _ s own t hmade => ?_
  obtain ⟨rfl, hcarries⟩ := hmade
  refine (proceeds_write JobFailure.io _ hcarries).andThen fun _ s own t hwritten => ?_
  refine (proceeds_writeCatalogs hrest hwritten).mono fun _ s own t hmore => ?_
  obtain ⟨more, hcarries, houtputs⟩ := hmore
  refine ⟨(output, gridBytes o db) :: more, ?_, ?_⟩
  · rw [List.append_assoc] at hcarries
    exact hcarries
  · rw [Staging.outputs, List.map_cons, hpath]
    exact congrArg _ houtputs

/-- The path of the tile grid is found, or the job fails. -/
theorem proceeds_databasePath {folder : String} (h : Carries held s own t) :
    Work.Proceeds me env (fun path s own t => gridPath? o db input folder = some path ∧
      Carries held s own t) Complete (databasePath o db input folder) s own t := by
  rw [databasePath]
  have hfails (failure : JobFailure) {good : Work.Goal String} : Work.Proceeds me env good Complete
      (throw failure : Step String) s own t :=
    Work.proceeds_throw fun t' henv => (h.after henv).complete
  cases harch : (o.architecture <|> db.archName) with
  | none => exact hfails _
  | some architecture =>
    cases hstem : Path.stem? input with
    | none => exact hfails _
    | some part =>
      refine Work.proceeds_pure fun t' henv => ⟨?_, h.after henv⟩
      rw [gridPath?, harch, hstem]
      rfl

theorem proceeds_writeDatabaseFolder {folder : String}
    (hways : ∀ out ∈ wanted (gridPath? o db input folder) (gridBytes o db),
      ∀ l ∈ Path.way (Path.folder out.1), l ∈ me.ways) (h : Carries held s own t) :
    Work.Proceeds me env (fun _ s own t => ∃ more, Carries (held ++ more) s own t ∧
      ∃ path, gridPath? o db input folder = some path ∧ IsTileGrid o db (gridBytes o db) ∧
        Staging.outputs more = [(path, gridBytes o db)]) Complete
      (writeDatabaseFolder o db (o.layout.getD db.variant) input folder) s own t := by
  refine (proceeds_databasePath h).andThen fun path s own t hmid => ?_
  obtain ⟨hpath, hcarries⟩ := hmid
  rw [hpath] at hways
  have hway := hways (path, gridBytes o db) (List.mem_singleton_self _)
  refine (proceeds_stage JobFailure.io hway hcarries).andThen fun output s own t hmid => ?_
  obtain ⟨rfl, hstaged⟩ := hmid
  refine (proceeds_tileGridBytes o db hstaged).andThen fun made s own t hmade => ?_
  obtain ⟨hgrid, hcarries⟩ := hmade
  obtain rfl := hgrid.eq_gridBytes
  refine (proceeds_write JobFailure.io _ hcarries).mono fun _ s own t hwritten => ?_
  exact ⟨[(output, gridBytes o db)], hwritten, output.path, hpath, hgrid, rfl⟩

/-! ### Reading the input -/

/-- A party puts nothing to the place of the input that a job could decode. -/
def Spares (p : Party) (o : Options) (input : String) : Prop :=
  ∀ content, (Path.place input, content) ∈ p.outputs → ∀ db dump, ¬Decodes o content db dump

/-- What can be decoded at the place of the input has been there from the start. -/
def InputKept (o : Options) (input : String) (t₀ t : FileTree) : Prop :=
  ∀ content, t.node? (Path.place input) = some (.file content) →
    t₀.node? (Path.place input) = some (.file content) ∨ ∀ db dump, ¬Decodes o content db dump

theorem InputKept.after {p : Party} {kept : Set TempId} {t' : FileTree}
    (h : InputKept o input t₀ t) (hp : Spares p o input) (hchanges : p.Changes kept t t') :
    InputKept o input t₀ t' := by
  intro content hcontent
  have hleads := hchanges.nodes (Path.place input)
  rw [hcontent] at hleads
  rcases hleads.file with hbefore | hput
  · exact h content hbefore
  · exact .inr (hp content hput)

theorem kept_inputKept (hme : Spares me o input) (henv : Spares env o input) :
    Task.Kept me env (InputKept o input t₀) :=
  ⟨fun _ _ hchanges h => h.after henv hchanges, fun _ _ hchanges h => h.after hme hchanges⟩

/-- What a path is read as lies at its place. -/
theorem node?_of_read (h : t.read input = .ok content) :
    t.node? (Path.place input) = some (.file content) := by
  obtain ⟨-, l, hends, hnode⟩ := lookup_eq_file_iff.1 (read_eq_ok_iff.1 h)
  rwa [hends.eq_place] at hnode

/-- **Decoding.** A job that decodes its input decodes what lay there at the start. -/
theorem proceeds_decodeFile (h : Carries held s own t) (hinput : InputKept o input t₀ t)
    (henv : Spares env o input) :
    Work.Proceeds me env (fun made s own t => Carries held s own t ∧
      ∃ content, t₀.node? (Path.place input) = some (.file content) ∧
        Decodes o content made.1 made.2) Complete
      (decodeFile input o.plainText.isSome) s own t := by
  refine Work.Proceeds.andThen (M := fun content s own t => Carries held s own t ∧
    (t₀.node? (Path.place input) = some (.file content) ∨
      ∀ db dump, ¬Decodes o content db dump)) ?_ fun content s own t hmid => ?_
  · refine Work.proceeds_demand (.map (.read (fun t₁ cause hlater => ?_)
      fun t₁ content hlater hread => ?_))
    · exact .done fun t' hlast => ((h.after hlater).after hlast).complete
    · refine .done fun t' hlast => ⟨(h.after hlater).after hlast, ?_⟩
      exact (hinput.after henv hlater) content (node?_of_read hread)
  obtain ⟨hcarries, hcontent⟩ := hmid
  cases hdecode : decode content (if o.plainText.isSome then some {} else none) with
  | ok db reading =>
    have hdecodes : Decodes o content db (reading.dump.getD {}).bytes.toList :=
      ⟨reading, hdecode, rfl⟩
    have hstart := hcontent.resolve_right fun hnot => hnot _ _ hdecodes
    refine (proceeds_noted _ hcarries).andThen fun _ s own t hnoted => ?_
    exact Work.proceeds_pure fun t' hlater => ⟨hnoted.after hlater, content, hstart, hdecodes⟩
  | error failure reading =>
    refine (proceeds_noted _ hcarries).andThen fun _ s own t hnoted => ?_
    exact Work.proceeds_throw fun t' hlater => (hnoted.after hlater).complete

/-! ### The staged outputs -/

/-- The outputs of the data folder, if there is to be one. -/
def fillDataFolder (o : Options) (db : Database) : Step Unit :=
  match o.dataFolder with
  | none => pure ()
  | some folder => writeDataFolder db (o.layout.getD db.variant) folder

/-- The output of the database folder, if there is to be one. -/
def fillDatabaseFolder (o : Options) (input : String) (db : Database) : Step Unit :=
  match o.databaseFolder with
  | none => pure ()
  | some folder => writeDatabaseFolder o db (o.layout.getD db.variant) input folder

/-- What is written once the input is decoded. -/
def fill (o : Options) (input : String) (plainText tileGrid fuseMap cache : Option Staged)
    (db : Database) (dump : List UInt8) : Step Unit := do
  writeWanted plainText (return dump)
  writeWanted tileGrid (tileGridBytes db (o.layout.getD db.variant))
  fillDataFolder o db
  fillDatabaseFolder o input db
  writeWanted fuseMap (fuseMapBytes db o.correctColumns)
  writeWanted cache (return db.toCacheFile)

theorem prepare_eq (o : Options) (input : String) : prepare o input = (do
    let plainText ← stageWanted o.plainText
    let tileGrid ← stageWanted o.tileGrid
    let fuseMap ← stageWanted o.fuseMap
    let cache ← stageWanted o.cache
    checkWanted (o.dataFolder.map (Path.join · "bits"))
    checkWanted o.databaseFolder
    Work.ask (Task.notes [.decoding input])
    let made ← decodeFile input plainText.isSome
    fill o input plainText tileGrid fuseMap cache made.1 made.2) := by
  unfold prepare fill fillDataFolder fillDatabaseFolder
  cases o.dataFolder <;> cases o.databaseFolder <;> rfl

theorem proceeds_fillDataFolder
    (hways : ∀ out ∈ dataOutputs o db, ∀ l ∈ Path.way (Path.folder out.1), l ∈ me.ways)
    (h : Carries held s own t) :
    Work.Proceeds me env (fun _ s own t => ∃ more, Carries (held ++ more) s own t ∧
      Staging.outputs more = dataOutputs o db) Complete (fillDataFolder o db) s own t := by
  rw [fillDataFolder]
  rw [dataOutputs] at hways ⊢
  cases hfolder : o.dataFolder with
  | none =>
    refine Work.proceeds_pure fun t' henv => ⟨[], ?_, rfl⟩
    rw [List.append_nil]
    exact h.after henv
  | some folder =>
    rw [hfolder] at hways
    exact proceeds_writeDataFolder hways h

/-- The tile grid and its path are known where there is to be one in a database folder. -/
def GridKnown (o : Options) (input : String) (db : Database) : Prop :=
  ∀ folder ∈ o.databaseFolder, ∃ path, gridPath? o db input folder = some path ∧
    IsTileGrid o db (gridBytes o db)

theorem proceeds_fillDatabaseFolder
    (hways : ∀ out ∈ databaseOutputs o input db, ∀ l ∈ Path.way (Path.folder out.1), l ∈ me.ways)
    (h : Carries held s own t) :
    Work.Proceeds me env (fun _ s own t => ∃ more, Carries (held ++ more) s own t ∧
      Staging.outputs more = databaseOutputs o input db ∧ GridKnown o input db) Complete
      (fillDatabaseFolder o input db) s own t := by
  rw [fillDatabaseFolder]
  rw [databaseOutputs] at hways ⊢
  cases hfolder : o.databaseFolder with
  | none =>
    refine Work.proceeds_pure fun t' henv => ⟨[], ?_, rfl, fun folder hmem => ?_⟩
    · rw [List.append_nil]
      exact h.after henv
    · rw [hfolder] at hmem
      exact nomatch hmem
  | some folder =>
    rw [hfolder] at hways
    refine (proceeds_writeDatabaseFolder hways h).mono fun _ s own t hmore => ?_
    obtain ⟨more, hcarries, path, hpath, hgrid, houtputs⟩ := hmore
    refine ⟨more, hcarries, ?_, fun folder' hmem => ?_⟩
    · rw [houtputs]
      simp only [hpath]
      rfl
    · rw [hfolder] at hmem
      obtain rfl := Option.some.inj hmem
      exact ⟨path, hpath, hgrid⟩

/-- The folders that outputs go to which are known once the input is decoded. -/
def lateFolders (o : Options) (input : String) (db : Database) : List String :=
  (dataOutputs o db ++ databaseOutputs o input db).map fun out => Path.folder out.1

/-- Staged outputs are for the paths that the options give. -/
structure StagedFor (o : Options) (plainText tileGrid fuseMap cache : Option Staged) : Prop where
  plainTextPath : plainText.map (·.path) = o.plainText
  tileGridPath : tileGrid.map (·.path) = o.tileGrid
  fuseMapPath : fuseMap.map (·.path) = o.fuseMap
  cachePath : cache.map (·.path) = o.cache

/-- **Filling.** All outputs are staged and written, or the job fails. -/
theorem proceeds_fill {plainText tileGrid fuseMap cache : Option Staged}
    (hpaths : StagedFor o plainText tileGrid fuseMap cache)
    (hways : ∀ folder ∈ lateFolders o input db, ∀ l ∈ Path.way folder, l ∈ me.ways)
    (h : Carries (slot plainText [] ++ slot tileGrid [] ++ slot fuseMap [] ++ slot cache [])
      s own t) :
    Work.Proceeds me env (fun _ s own t => ∃ held, Carries held s own t ∧
      Staging.outputs held = outputs o input db dump ∧ GridKnown o input db) Complete
      (fill o input plainText tileGrid fuseMap cache db dump) s own t := by
  have hdataWays : ∀ out ∈ dataOutputs o db, ∀ l ∈ Path.way (Path.folder out.1), l ∈ me.ways :=
    fun out hout => hways _ (List.mem_map_of_mem (List.mem_append_left _ hout))
  have hbaseWays : ∀ out ∈ databaseOutputs o input db,
      ∀ l ∈ Path.way (Path.folder out.1), l ∈ me.ways :=
    fun out hout => hways _ (List.mem_map_of_mem (List.mem_append_right _ hout))
  -- each output is written between those before it and those behind it
  have hcarries : Carries ([] ++ slot plainText [] ++
      (slot tileGrid [] ++ slot fuseMap [] ++ slot cache [])) s own t := by
    simpa only [List.nil_append, List.append_assoc] using h
  refine (proceeds_writeWanted (makes_pure dump) hcarries).andThen fun _ s own t hmid => ?_
  have hcarries : Carries (slot plainText dump ++ slot tileGrid [] ++
      (slot fuseMap [] ++ slot cache [])) s own t := by
    simpa only [List.nil_append, List.append_assoc] using hmid
  refine (proceeds_writeWanted (makes_tileGridBytes o db) hcarries).andThen
    fun _ s own t hmid => ?_
  refine (proceeds_fillDataFolder hdataWays hmid).andThen fun _ s own t hmid => ?_
  obtain ⟨inData, hcarries, hdata⟩ := hmid
  refine (proceeds_fillDatabaseFolder hbaseWays hcarries).andThen fun _ s own t hmid => ?_
  obtain ⟨inBase, hcarries, hbase, hknown⟩ := hmid
  have hcarries : Carries (slot plainText dump ++ slot tileGrid (gridBytes o db) ++
      slot fuseMap [] ++ (slot cache [] ++ inData ++ inBase)) s own t := by
    simpa only [List.append_assoc] using hcarries
  refine (proceeds_writeWanted (makes_fuseMapBytes o db) hcarries).andThen fun _ s own t hmid => ?_
  have hcarries : Carries (slot plainText dump ++ slot tileGrid (gridBytes o db) ++
      slot fuseMap (fuseBytes o db) ++ slot cache [] ++ (inData ++ inBase)) s own t := by
    simpa only [List.append_assoc] using hmid
  refine (proceeds_writeWanted (makes_pure db.toCacheFile) hcarries).mono
    fun _ s own t hwritten => ⟨_, hwritten, ?_, hknown⟩
  rw [outputs, ← outputs_slot hpaths.plainTextPath, ← outputs_slot hpaths.tileGridPath,
    ← outputs_slot hpaths.fuseMapPath, ← outputs_slot hpaths.cachePath, ← hdata, ← hbase]
  simp only [Staging.outputs, List.map_append, List.append_assoc]

/-- The folders that are checked before the input is read. -/
def checkedFolders (o : Options) : List String :=
  (o.dataFolder.map (Path.join · "bits")).toList ++ o.databaseFolder.toList

/-- The folders that are opened before the input is read. -/
def earlyFolders (o : Options) : List String :=
  (o.plainText.toList ++ o.tileGrid.toList ++ o.fuseMap.toList ++ o.cache.toList).map Path.folder ++
    checkedFolders o

/-- A folder that a job opens, by what lies at the place of its input at the start. -/
def Opens (o : Options) (input : String) (t₀ : FileTree) (folder : String) : Prop :=
  folder ∈ earlyFolders o ∨ ∃ content db dump,
    t₀.node? (Path.place input) = some (.file content) ∧ Decodes o content db dump ∧
      folder ∈ lateFolders o input db

/-- What a job is to commit: the outputs for what lay at the place of its input at the start. -/
def Commits (o : Options) (input : String) (t₀ : FileTree) (db : Database)
    (outs : List (String × List UInt8)) : Prop :=
  ∃ content dump, t₀.node? (Path.place input) = some (.file content) ∧
    Decodes o content db dump ∧ outs = outputs o input db dump ∧ GridKnown o input db

theorem mem_earlyFolders {path : String}
    (h : path ∈ o.plainText ∨ path ∈ o.tileGrid ∨ path ∈ o.fuseMap ∨ path ∈ o.cache) :
    Path.folder path ∈ earlyFolders o := by
  refine List.mem_append_left _ (List.mem_map_of_mem ?_)
  simp only [List.mem_append, Option.mem_toList]
  tauto

section Openings

variable {α : Type} {good : Work.Goal α} {R : FileTree → Prop}

/-- The outputs whose paths the options give are staged first. -/
theorem proceeds_stageKnown
    {f : Option Staged → Option Staged → Option Staged → Option Staged → Step α}
    (hways : ∀ folder ∈ earlyFolders o, ∀ l ∈ Path.way folder, l ∈ me.ways)
    (hkept : Task.Kept me env R) (hR : R t)
    (hf : ∀ plainText tileGrid fuseMap cache s own t,
      StagedFor o plainText tileGrid fuseMap cache →
      Carries (slot plainText [] ++ slot tileGrid [] ++ slot fuseMap [] ++ slot cache []) s own t →
      R t → Work.Proceeds me env good Complete (f plainText tileGrid fuseMap cache) s own t) :
    Work.Proceeds me env good Complete (do
      let plainText ← stageWanted o.plainText
      let tileGrid ← stageWanted o.tileGrid
      let fuseMap ← stageWanted o.fuseMap
      let cache ← stageWanted o.cache
      f plainText tileGrid fuseMap cache) {} ∅ t := by
  have hfolders {path : Option String} (hpath : ∀ p ∈ path,
      p ∈ o.plainText ∨ p ∈ o.tileGrid ∨ p ∈ o.fuseMap ∨ p ∈ o.cache) :
      ∀ p ∈ path, ∀ l ∈ Path.way (Path.folder p), l ∈ me.ways :=
    fun p hp => hways _ (mem_earlyFolders (hpath p hp))
  have hnothing : Carries [] {} ∅ t := ⟨rfl, .nil t⟩
  refine ((proceeds_stageWanted (hfolders fun _ => .inl) hnothing).frame hkept hR).andThen
    fun plainText s own t hmid => ?_
  obtain ⟨⟨hplain, hcarries⟩, hR⟩ := hmid
  refine ((proceeds_stageWanted (hfolders fun _ hp => .inr (.inl hp)) hcarries).frame
    hkept hR).andThen fun tileGrid s own t hmid => ?_
  obtain ⟨⟨hgrid, hcarries⟩, hR⟩ := hmid
  refine ((proceeds_stageWanted (hfolders fun _ hp => .inr (.inr (.inl hp))) hcarries).frame
    hkept hR).andThen fun fuseMap s own t hmid => ?_
  obtain ⟨⟨hfuses, hcarries⟩, hR⟩ := hmid
  refine ((proceeds_stageWanted (hfolders fun _ hp => .inr (.inr (.inr hp))) hcarries).frame
    hkept hR).andThen fun cache s own t hmid => ?_
  obtain ⟨⟨hcache, hcarries⟩, hR⟩ := hmid
  exact hf _ _ _ _ s own t ⟨hplain, hgrid, hfuses, hcache⟩ hcarries hR

/-- The folders of later outputs are checked. -/
theorem proceeds_checkFolders {f : Step α}
    (hways : ∀ folder ∈ checkedFolders o, ∀ l ∈ Path.way folder, l ∈ me.ways)
    (hkept : Task.Kept me env R) (h : Carries held s own t) (hR : R t)
    (hf : ∀ s own t, Carries held s own t → R t →
      (∀ folder ∈ checkedFolders o, t.Open [] (Path.pieces folder)) →
      Work.Proceeds me env good Complete f s own t) :
    Work.Proceeds me env good Complete (do
      checkWanted (o.dataFolder.map (Path.join · "bits"))
      checkWanted o.databaseFolder
      f) s own t := by
  refine ((proceeds_checkWanted (fun p hp => hways p ?_) h).frame hkept hR).andThen
    fun _ s own t hmid => ?_
  · exact List.mem_append_left _ (Option.mem_toList.2 hp)
  obtain ⟨⟨hcarries, hbits⟩, hR⟩ := hmid
  refine ((proceeds_checkWanted (fun p hp => hways p ?_) hcarries).frame
    (hkept.and (Task.kept_opens _)) ⟨hR, hbits⟩).andThen fun _ s own t hmid => ?_
  · exact List.mem_append_right _ (Option.mem_toList.2 hp)
  obtain ⟨⟨hcarries, hbase⟩, hR, hbits⟩ := hmid
  refine hf s own t hcarries hR fun folder hfolder => ?_
  rcases List.mem_append.1 hfolder with hmem | hmem
  · exact hbits folder (Option.mem_toList.1 hmem)
  · exact hbase folder (Option.mem_toList.1 hmem)

end Openings

/-- **Preparing.** A job stages its outputs complete and has opened the folders that they go to, or
it fails. Either way it knows all of its temporary files, and it makes nothing but directories. -/
theorem proceeds_prepare
    (hways : ∀ folder, Opens o input t folder → ∀ l ∈ Path.way folder, l ∈ me.ways)
    (hme : Spares me o input) (henv : Spares env o input) :
    Work.Proceeds me env (fun _ s own t' => ∃ held db, Carries held s own t' ∧
      Commits o input t db (Staging.outputs held) ∧
      ∀ folder ∈ checkedFolders o, t'.Open [] (Path.pieces folder)) Complete
      (prepare o input) {} ∅ t := by
  have hearly : ∀ folder ∈ earlyFolders o, ∀ l ∈ Path.way folder, l ∈ me.ways :=
    fun folder hfolder => hways folder (.inl hfolder)
  have hchecked : ∀ folder ∈ checkedFolders o, ∀ l ∈ Path.way folder, l ∈ me.ways :=
    fun folder hfolder => hearly folder (List.mem_append_right _ hfolder)
  have hkept : Task.Kept me env (InputKept o input t) := kept_inputKept hme henv
  rw [prepare_eq]
  refine proceeds_stageKnown hearly hkept (fun _ => .inl)
    fun plainText tileGrid fuseMap cache s own t₁ hpaths hcarries hinput => ?_
  refine proceeds_checkFolders hchecked hkept hcarries hinput
    fun s own t₁ hcarries hinput hopens => ?_
  refine Work.Proceeds.andThen ((proceeds_noted _ hcarries).frame (hkept.and (Task.kept_opens _))
    ⟨hinput, hopens⟩) fun _ s own t₁ hmid => ?_
  obtain ⟨hcarries, hinput, hopens⟩ := hmid
  -- the input is read
  have hsome : plainText.isSome = o.plainText.isSome := by
    rw [← hpaths.plainTextPath, Option.isSome_map]
  rw [hsome]
  refine ((proceeds_decodeFile hcarries hinput henv).frame (Task.kept_opens _) hopens).andThen
    fun made s own t₁ hmid => ?_
  obtain ⟨⟨hcarries, content, hcontent, hdecodes⟩, hopens⟩ := hmid
  have hlate : ∀ folder ∈ lateFolders o input made.1, ∀ l ∈ Path.way folder, l ∈ me.ways :=
    fun folder hfolder =>
      hways folder (.inr ⟨content, made.1, made.2, hcontent, hdecodes, hfolder⟩)
  -- everything is written
  refine ((proceeds_fill hpaths hlate hcarries).frame (Task.kept_opens _)
    hopens).mono fun _ s own t₂ hfilled => ?_
  obtain ⟨⟨held, hcarries, houtputs, hknown⟩, hopens⟩ := hfilled
  exact ⟨held, made.1, hcarries, ⟨content, made.2, hcontent, hdecodes, houtputs, hknown⟩, hopens⟩

/-! ### The whole job -/

/-- The outputs of a job that has succeeded are at their places, but for what others have done there
since, and the folders that they went to are there. -/
structure Made (env : Party) (o : Options) (outs : List (String × List UInt8)) (t : FileTree) :
    Prop where
  published : Published env outs t
  folders : ∀ out ∈ outs, t.Open [] (Path.pieces (Path.folder out.1))
  checked : ∀ folder ∈ checkedFolders o, t.Open [] (Path.pieces folder)

theorem spares_maker (ways : Set Location) (o : Options) (input : String) :
    Spares (.maker ways) o input :=
  fun _ hmem => absurd hmem (Set.notMem_empty _)

/-- **Jobs.** A job that succeeds has made the outputs for what lay at the place of its input at the
start, and leaves no temporary file. -/
theorem proceeds_run
    (hways : ∀ folder, Opens o input t folder → ∀ l ∈ Path.way folder, l ∈ me.ways)
    (hputs : ∀ db outs, Commits o input t db outs →
      ∀ out ∈ outs, (Path.place out.1, out.2) ∈ me.outputs)
    (hremoves : ∀ db outs, Commits o input t db outs →
      ∀ out ∈ outs.dropLast, Path.place out.1 ∈ me.removals)
    (henv : Spares env o input) :
    Task.Proceeds me env (fun r own t' => r = .ok () → ∃ db outs, Commits o input t db outs ∧
      Made env o outs t' ∧ ∀ id ∈ own, t'.temps.get? id = none) (run o input) ∅ t := by
  have hprepare : Task.Proceeds (.maker me.ways) env _ (prepare o input).start ∅ t :=
    proceeds_prepare hways (spares_maker _ o input) henv
  refine (hprepare.weaken me.maker_le).bind fun r own t₁ hr => ?_
  obtain ⟨failure | _, staging⟩ := r
  · refine (proceeds_discard hr).bind fun _ own t₂ _ => ?_
    exact .done fun t' _ hok => nomatch hok
  · obtain ⟨held, db, hcarries, hcommits, hopens⟩ := hr
    have hfolders : ∀ path, (∃ out ∈ Staging.outputs held, path = Path.folder out.1) →
        t₁.Open [] (Path.pieces path) := by
      rintro path ⟨out, hout, rfl⟩
      obtain ⟨h, hh, rfl⟩ := List.mem_map.1 hout
      exact hcarries.holds.ways h hh
    have hcommit : Task.Proceeds me env _ staging.commit own t₁ :=
      proceeds_commit hcarries (hputs db _ hcommits) (hremoves db _ hcommits)
    refine (hcommit.frame ((Task.kept_opens _).and (Task.kept_opens _))
      ⟨hfolders, hopens⟩).stays.bind fun r own t₂ hr => ?_
    cases r with
    | error e => exact .done fun t' _ hok => nomatch hok
    | ok paths =>
      refine .note (.done fun t' hlater _ => ?_)
      obtain ⟨hdone, hfolders, hopens⟩ := hr t' hlater
      obtain ⟨hgone, hpublished⟩ := hdone paths rfl
      exact ⟨db, _, hcommits,
        ⟨hpublished, fun out hout => hfolders _ ⟨out, hout, rfl⟩, hopens⟩, hgone⟩

end ChipAtlas.Job
