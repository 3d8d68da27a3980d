import ChipAtlas.CommandLine.Command

/-!
# The program

Carries the command out on the files of the machine: every request of a task becomes a call of the
system. What the requests are, and in which order they come, is settled by `Command.run`.
-/

open ChipAtlas

namespace ChipAtlas.Program

/-- What is printed when help is asked for, and when the arguments were not understood. -/
def usage : String :=
  "Decode chip database files.\n\n" ++
  "Usage: [OPTIONS] <DB>...\n\n" ++
  "Options:\n" ++
  "      --tilegrid <PATH>   Tile grid JSON output\n" ++
  "      --decrypt <PATH>    Deciphered plaintext output\n" ++
  "      --datadir <PATH>    Directory for tilegrid.json and bits/<catalog>.json\n" ++
  "      --db-dir <PATH>     Database root; writes <db-dir>/<arch>/<part>/tilegrid.json\n" ++
  "      --arch <NAME>       Architecture directory under --db-dir\n" ++
  "      --schema <LAYOUT>   Tile grid JSON layout: current, legacy\n" ++
  "      --fusemap <PATH>    Fuse hit map output\n" ++
  "      --correct-columns   Apply the reserved bit-line corrections to the fuse map\n" ++
  "      --cache <PATH>      Compressed decoded database output\n" ++
  "  -v, --verbose           Report more\n" ++
  "  -h, --help              Print help"

/-- The failure that the system reports by an error. -/
def causeOf : IO.Error → IoCause
  | .noFileOrDirectory .. => .notFound
  | .alreadyExists .. => .alreadyExists
  | .inappropriateType _ 20 _ => .notADirectory
  | .inappropriateType _ 21 _ => .isADirectory
  | .unsatisfiedConstraints 39 _ => .directoryNotEmpty
  | .resourceBusy 16 _ => .busy
  | .invalidArgument _ 36 _ => .nameTooLong
  | .invalidArgument _ 22 _ => .invalidArgument
  | e => .other (toString e)

/-- The temporary files that are open, by number, with their paths. -/
abbrev Open := List (TempId × String)

/-- Work on the files of the machine. -/
abbrev OnMachine := StateT Open IO

/-- The answer of a call that can fail. -/
def reply {α : Type} (call : IO α) : OnMachine (Reply α) := do
  try
    return .ok (← call)
  catch e =>
    return .error (causeOf e)

/-- Whether the first byte at a path can be read, or why not. -/
def probe (path : String) : OnMachine (Reply Unit) :=
  reply do
    let handle ← IO.FS.Handle.mk path .read
    let _ ← handle.read 1

/-- The path of a temporary file, which is the empty path for a number that is not in use. -/
def pathOf (temp : TempId) : OnMachine String := return ((← get).lookup temp).getD ""

/-- Creates a temporary file under a name that nobody uses. -/
def openTemp (folder : String) : OnMachine (Reply TempId) := do
  let number ← IO.rand 0 1000000000000000000
  let path := Path.join folder s!".tmp{number}"
  match ← reply (IO.FS.Handle.mk path .writeNew) with
  | .error cause => return .error cause
  | .ok _ =>
    let temp := (← get).length
    modify ((temp, path) :: ·)
    return .ok temp

/-- Prints an event, if it is important enough. -/
def report (talkative : Bool) (event : Event) : OnMachine Unit :=
  if event.level = .debug ∧ ¬talkative then pure () else IO.eprintln event.line

/-- Carries a task out on the files of the machine. -/
def carryOut {α : Type} (talkative : Bool) : Task α → OnMachine α
  | .done a => return a
  | .isDir path next => do
    let isDirectory := match ← probe path with
      | .error .isADirectory => true
      | _ => false
    carryOut talkative (next isDirectory)
  | .isFile path next => do
    let isFile := match ← probe path with
      | .ok () => true
      | .error _ => false
    carryOut talkative (next isFile)
  | .read path next => do
    let bytes ← reply (IO.FS.readBinFile path)
    carryOut talkative (next (bytes.map (·.data.toList)))
  | .makeDirs path next => do
    carryOut talkative (next (← reply (IO.FS.createDirAll path)))
  | .openTemp folder next => do carryOut talkative (next (← openTemp folder))
  | .append temp bytes next => do
    let path ← pathOf temp
    let written ← reply do
      let handle ← IO.FS.Handle.mk path .append
      handle.write ⟨bytes.toArray⟩
    carryOut talkative (next written)
  | .publish temp path next => do
    let source ← pathOf temp
    carryOut talkative (next (← reply (IO.FS.rename source path)))
  | .discard temp next => do
    let path ← pathOf temp
    let _ ← reply (IO.FS.removeFile path)
    carryOut talkative next
  | .remove path next => do carryOut talkative (next (← reply (IO.FS.removeFile path)))
  | .note event next => do
    report talkative event
    carryOut talkative next

/-- Whether the arguments ask for more reports. -/
def asksForMore (arguments : List String) : Bool :=
  match Invocation.ofArguments none arguments with
  | .perform o => 0 < o.talkative
  | _ => false

/-- Prints how the command ended, and gives its status. -/
def finish (ending : Ending) : IO UInt32 := do
  match ending with
  | .help => IO.println usage
  | .misuse => IO.eprintln usage
  | _ => pure ()
  match ending.line? with
  | some line => IO.eprintln line
  | none => pure ()
  return .ofNat ending.status

end ChipAtlas.Program

/-- Runs the command on the arguments of the program. -/
def main (arguments : List String) : IO UInt32 := do
  let folder ← IO.getEnv "PRJTANG_DB"
  let command := Command.run folder arguments
  let (ending, _) ← (Program.carryOut (Program.asksForMore arguments) command).run []
  Program.finish ending
