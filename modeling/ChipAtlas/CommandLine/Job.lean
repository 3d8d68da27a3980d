import ChipAtlas.Cache.Database
import ChipAtlas.CommandLine.Arguments
import ChipAtlas.Files.Staging

/-!
# The job of one input file

A job decodes one input file and makes the outputs that the options ask for. The outputs whose paths
are known from the start are staged before the file is read, so that a path that cannot be written
is found before the work is done; the others are staged once the database is known. Nothing appears
before all outputs are complete.

* `Job.prepare` — everything up to the complete staged outputs;
* `Job.run` — the whole job.
-/

namespace ChipAtlas

/-- Why a job did not make its outputs. -/
inductive JobFailure where
  | io (e : IoError)
  | decoding (f : Failure)
  /-- The database names no architecture, and neither do the options. -/
  | noArchitecture (input : String)
  /-- The path of the input file does not end with a name. -/
  | noStem (input : String)
  deriving DecidableEq, Repr

/-- The wording of the failure of a job. -/
def JobFailure.message : JobFailure → String
  | .io e => e.message
  | .decoding f => f.message
  | .noArchitecture input => s!"{input}: no architecture name, pass --arch"
  | .noStem input => s!"{input}: no file stem"

namespace Job

/-- A step of a job. -/
abbrev Step := Work JobFailure

/-- The bytes of a text. -/
def bytesOf (text : String) : List UInt8 := text.toUTF8.data.toList

/-- Stages an output. -/
def stage (path : String) : Step Staged := Staging.stage .io path

/-- Stages an output that may not be wanted. -/
def stageWanted : Option String → Step (Option Staged)
  | none => pure none
  | some path => some <$> stage path

/-- Writes bytes into a staged output. -/
def write (output : Staged) (bytes : List UInt8) : Step Unit := Staging.write .io output bytes

/-- Writes bytes into a staged output that may not be wanted. -/
def writeWanted (output : Option Staged) (bytes : Step (List UInt8)) : Step Unit :=
  match output with
  | none => pure ()
  | some output => do write output (← bytes)

/-- Makes sure that files can be created in a directory that may not be wanted. -/
def checkWanted : Option String → Step Unit
  | none => pure ()
  | some folder => Work.demand .io (Staging.checkDir folder)

/-- The result of look-ups. -/
def checked {α : Type} : Checked α → Step α
  | .ok a => pure a
  | .error index => throw (.decoding (.breach index))

/-- Reads and decodes an input file, with a plaintext dump if one is wanted. -/
def decodeFile (input : String) (dumpWanted : Bool) : Step (Database × List UInt8) := do
  let bytes ← Work.request (fun e => .decoding (.io e)) (.read input .done)
  match decode bytes (if dumpWanted then some {} else none) with
  | .ok db s => do
    Work.ask (Task.notes s.log.toList)
    return (db, (s.dump.getD {}).bytes.toList)
  | .error failure s => do
    Work.ask (Task.notes s.log.toList)
    throw (.decoding failure)

/-- The exported tile grid of a database, as bytes. -/
def tileGridBytes (db : Database) (layout : Variant) : Step (List UInt8) :=
  bytesOf <$> checked (db.tileGridText layout)

/-- The fuse map of a database, as bytes. -/
def fuseMapBytes (db : Database) (correct : Bool) : Step (List UInt8) := do
  let map ← checked (db.fuseMap correct)
  Work.ask (Task.notes map.events)
  return bytesOf map.render

/-- Stages and writes one file for each catalog. -/
def writeCatalogs (folder : String) : List (String × Catalog) → Step Unit
  | [] => pure ()
  | (kind, catalog) :: rest => do
    let output ← stage (Path.join (Path.join folder "bits") (Catalog.fileName kind))
    write output (bytesOf catalog.toJson.pretty)
    writeCatalogs folder rest

/-- Stages and writes the files of the data folder: the tile grid and the catalogs. -/
def writeDataFolder (db : Database) (layout : Variant) (folder : String) : Step Unit := do
  let output ← stage (Path.join folder "tilegrid.json")
  write output (← tileGridBytes db layout)
  writeCatalogs folder db.catalogs.entries

/-- The path of the tile grid in a database folder: below the architecture and the part, which is
named by the input file. -/
def databasePath (o : Options) (db : Database) (input folder : String) : Step String := do
  let some architecture := o.architecture <|> db.archName | throw (.noArchitecture input)
  let some part := Path.stem? input | throw (.noStem input)
  return Path.join (Path.join (Path.join folder architecture) part) "tilegrid.json"

/-- Stages and writes the tile grid in a database folder. -/
def writeDatabaseFolder (o : Options) (db : Database) (layout : Variant) (input folder : String) :
    Step Unit := do
  let output ← stage (← databasePath o db input folder)
  write output (← tileGridBytes db layout)

/-- Everything up to the complete staged outputs. -/
def prepare (o : Options) (input : String) : Step Unit := do
  let plainText ← stageWanted o.plainText
  let tileGrid ← stageWanted o.tileGrid
  let fuseMap ← stageWanted o.fuseMap
  let cache ← stageWanted o.cache
  checkWanted (o.dataFolder.map (Path.join · "bits"))
  checkWanted o.databaseFolder
  Work.ask (Task.notes [.decoding input])
  let (db, dump) ← decodeFile input plainText.isSome
  writeWanted plainText (return dump)
  let layout := o.layout.getD db.variant
  writeWanted tileGrid (tileGridBytes db layout)
  match o.dataFolder with
  | none => pure ()
  | some folder => writeDataFolder db layout folder
  match o.databaseFolder with
  | none => pure ()
  | some folder => writeDatabaseFolder o db layout input folder
  writeWanted fuseMap (fuseMapBytes db o.correctColumns)
  writeWanted cache (return db.toCacheFile)

/-- The whole job of one input file. -/
def run (o : Options) (input : String) : Task (Except JobFailure Unit) := do
  match ← (prepare o input).start with
  | (.error failure, staging) =>
    staging.discard
    return .error failure
  | (.ok (), staging) =>
    match ← staging.commit with
    | .error e => return .error (.io e)
    | .ok paths =>
      Task.notes [.wroteAll input paths.length]
      return .ok ()

end Job

end ChipAtlas
