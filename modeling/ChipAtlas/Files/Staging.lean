import ChipAtlas.Files.Task

/-!
# Staging

Output files are not written in place. Each is staged: written into a temporary file in the
directory that it is to appear in. Once all outputs of a piece of work are complete they are
committed, that is, moved to their paths; if the work fails before, they are dropped, and nothing
has appeared.

* `Staging.stage`, `Staging.write` — stages an output and writes into it;
* `Staging.commit` — moves the outputs to their paths, and takes those already moved away again if
  one cannot be moved;
* `Staging.discard` — drops the outputs.
-/

namespace ChipAtlas

/-- An output that is staged: its temporary file, and the path that it is to appear under. -/
structure Staged where
  temp : TempId
  path : String
  deriving DecidableEq, Repr

/-- The staged outputs of a piece of work, in the order in which they were staged. -/
structure Staging where
  files : List Staged := []
  deriving DecidableEq, Repr, Inhabited

/-- Work that stages outputs. What has been staged is known also when the work fails. -/
abbrev Work (ε : Type) := ExceptT ε (StateT Staging Task)

namespace Work

variable {α ε : Type}

/-- Asks the file system as part of work. -/
def ask (t : Task α) : Work ε α := ExceptT.lift (StateT.lift t)

/-- Asks the file system for what can fail. -/
def demand (fail : IoError → ε) (t : Task (Except IoError α)) : Work ε α := do
  match ← ask t with
  | .ok a => return a
  | .error e => throw (fail e)

/-- Asks the file system for what can fail, where the failure is all that there is to tell. -/
def request (fail : IoError → ε) (t : Task (Reply α)) : Work ε α :=
  demand fail (Except.mapError (⟨·, .nothing⟩) <$> t)

/-- Carries work out with nothing staged before. -/
def start (w : Work ε α) : Task (Except ε α × Staging) := (ExceptT.run w).run {}

end Work

namespace Staging

variable {ε : Type}

/-- Makes a directory, if need be, and opens a temporary file in it. -/
def openIn (folder : String) : Task (Except IoError TempId) :=
  .makeDirs folder fun
    | .error cause => .done (.error ⟨cause, .nothing⟩)
    | .ok () =>
      .openTemp folder fun
        | .error cause =>
          .done (.error ⟨cause, .temporary (Path.join folder FileTree.tempName)⟩)
        | .ok temp => .done (.ok temp)

/-- Stages an output for a path, where no directory may stand. -/
def stage (fail : IoError → ε) (path : String) : Work ε Staged := do
  if ← Work.ask (.isDir path .done) then throw (fail ⟨.directoryInTheWay, .output path⟩)
  let temp ← Work.demand fail (openIn (Path.folder path))
  let staged : Staged := { temp, path }
  modify fun s => { s with files := s.files ++ [staged] }
  return staged

/-- Writes bytes at the end of a staged output. -/
def write (fail : IoError → ε) (output : Staged) (bytes : List UInt8) : Work ε Unit :=
  Work.request fail (.append output.temp bytes .done)

/-- Makes sure that files can be created in a directory, which is made if need be. -/
def checkDir (path : String) : Task (Except IoError Unit) := do
  match ← openIn path with
  | .error e => return .error e
  | .ok temp => .discard temp (.done (.ok ()))

/-- Drops temporary files. -/
def discardAll : List Staged → Task Unit
  | [] => .done ()
  | output :: rest => .discard output.temp (discardAll rest)

/-- Drops the staged outputs. -/
def discard (s : Staging) : Task Unit := discardAll s.files

/-- Removes files that had been moved to their paths. -/
def removeAll : List String → Task Unit
  | [] => .done ()
  | path :: rest =>
    .remove path fun
      | .ok () => removeAll rest
      | .error cause => .note (.notRemoved path cause) (removeAll rest)

/-- Moves outputs to their paths, after those at the given paths, up to the first that cannot be
moved. Then the moved ones are removed and the others dropped. -/
def commitFrom (moved : List String) : List Staged → Task (Except IoError (List String))
  | [] => .done (.ok moved)
  | output :: rest =>
    .publish output.temp output.path fun
      | .ok () => .note (.wrote output.path) (commitFrom (moved ++ [output.path]) rest)
      | .error cause => do
        .discard output.temp (.done ())
        removeAll moved
        discardAll rest
        return .error ⟨cause, .output output.path⟩

/-- Moves the staged outputs to their paths, which are returned. -/
def commit (s : Staging) : Task (Except IoError (List String)) := commitFrom [] s.files

end Staging

end ChipAtlas
