import ChipAtlas.CommandLine.Job

/-!
# The command

The command checks that its input files are there, runs the job of each, reports the jobs that
failed in the order of the inputs, and ends with a status: zero if all outputs were made, two if the
arguments were not understood, one otherwise.

* `Command.perform` — what a list of options does;
* `Command.run` — the whole command, from its arguments to its status.
-/

namespace ChipAtlas

/-- Why the command gave up. -/
inductive Abort where
  | noSuchFile (path : String)
  /-- Outputs that are made once are wanted of several inputs. -/
  | severalInputs
  | jobsFailed (failed total : Nat)
  deriving DecidableEq, Repr

/-- The wording of a reason to give up. -/
def Abort.message : Abort → String
  | .noSuchFile path => s!"File path {path} does not exist..."
  | .severalInputs =>
    "--tilegrid, --decrypt, --datadir, --fusemap and --cache take a single input file"
  | .jobsFailed failed total => s!"{failed} of {total} files failed"

/-- The line that the command ends with when it gives up. -/
def Abort.line (a : Abort) : String :=
  "Error: SimpleError \x7b err: " ++ Text.quoted a.message ++ " \x7d"

/-- How the command ends. -/
inductive Ending where
  | done
  | help
  | misuse
  | aborted (a : Abort)
  deriving DecidableEq, Repr

/-- The status of the command. -/
def Ending.status : Ending → Nat
  | .done | .help => 0
  | .aborted _ => 1
  | .misuse => 2

/-- The line that the command ends with, if there is one. -/
def Ending.line? : Ending → Option String
  | .aborted a => some a.line
  | _ => none

namespace Command

/-- The first of some paths that does not lead to a regular file. -/
def missing? : List String → Task (Option String)
  | [] => .done none
  | path :: rest => .isFile path fun there => if there then missing? rest else .done (some path)

/-- Runs the jobs of input files, one after the other, and returns the failures with their
inputs. -/
def runJobs (o : Options) : List String → Task (List (String × JobFailure))
  | [] => return []
  | input :: rest => do
    match ← Job.run o input with
    | .ok () => runJobs o rest
    | .error failure => return (input, failure) :: (← runJobs o rest)

/-- Does what options say. -/
def perform (o : Options) : Task Ending := do
  match ← missing? o.inputs with
  | some path => return .aborted (.noSuchFile path)
  | none =>
    if 1 < o.inputs.length ∧ o.hasSingleOutputs then return .aborted .severalInputs
    let failures ← runJobs o o.inputs
    Task.notes (failures.map fun f => .failed f.1 f.2.message)
    if failures.isEmpty then return .done
    else return .aborted (.jobsFailed failures.length o.inputs.length)

/-- The whole command, with the database folder that the environment names. -/
def run (environment : Option String) (arguments : List String) : Task Ending :=
  match Invocation.ofArguments environment arguments with
  | .help => return .help
  | .misuse => return .misuse
  | .perform o => perform o

end Command

end ChipAtlas
