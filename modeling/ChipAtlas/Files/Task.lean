import ChipAtlas.Event
import ChipAtlas.Files.FileTree

/-!
# Tasks: what is asked of the file system

Work on files is written as tasks. A task is a tree of requests to the file system, whose branches
depend on the answers, and it ends with a result. `Task.run` carries a task out on a file tree; the
program carries the same tasks out on the files of the machine.

Because tasks are data, what holds for every request of a kind holds for every task made of such
requests, and the requests of several tasks can be interleaved.

* `Task.bind` — a task that goes on with another;
* `Task.run` — the meaning of a task on a file tree.
-/

namespace ChipAtlas

/-- The answer to a request that can fail. -/
abbrev Reply := Except IoCause

/-- What is asked of the file system, request by request. -/
inductive Task (α : Type) : Type where
  /-- The result. -/
  | done (a : α)
  /-- Whether a path leads to a directory. -/
  | isDir (path : String) (next : Bool → Task α)
  /-- Whether a path leads to a regular file. -/
  | isFile (path : String) (next : Bool → Task α)
  /-- The bytes of a regular file. -/
  | read (path : String) (next : Reply (List UInt8) → Task α)
  /-- A directory, and those on the way to it, are to be there. -/
  | makeDirs (path : String) (next : Reply Unit → Task α)
  /-- A new temporary file in a directory. -/
  | openTemp (folder : String) (next : Reply TempId → Task α)
  /-- Bytes at the end of a temporary file. -/
  | append (temp : TempId) (bytes : List UInt8) (next : Reply Unit → Task α)
  /-- A temporary file is to be moved to a path. -/
  | publish (temp : TempId) (path : String) (next : Reply Unit → Task α)
  /-- A temporary file is to be dropped. -/
  | discard (temp : TempId) (next : Task α)
  /-- A regular file is to be removed. -/
  | remove (path : String) (next : Reply Unit → Task α)
  /-- An event. -/
  | note (event : Event) (next : Task α)

/-- A file tree that is worked on, and what has been reported. -/
structure Disk where
  tree : FileTree
  log : Array Event := #[]
  deriving DecidableEq, Repr

namespace Disk

/-- The answer of the tree to a question. -/
def answer {α : Type} (f : FileTree → α) : StateM Disk α := fun d => (f d.tree, d)

/-- Changes the tree. -/
def change {α : Type} (c : TreeChange α) : StateM Disk (Reply α) := fun d =>
  match c d.tree with
  | .ok a tree => (.ok a, { d with tree })
  | .error cause tree => (.error cause, { d with tree })

/-- Reports an event. -/
def report (event : Event) : StateM Disk Unit := fun d => ((), { d with log := d.log.push event })

end Disk

namespace Task

variable {α β : Type}

/-- Goes on with what a function makes of the result. -/
def bind : Task α → (α → Task β) → Task β
  | done a, f => f a
  | isDir path next, f => isDir path fun yes => (next yes).bind f
  | isFile path next, f => isFile path fun yes => (next yes).bind f
  | read path next, f => read path fun reply => (next reply).bind f
  | makeDirs path next, f => makeDirs path fun reply => (next reply).bind f
  | openTemp folder next, f => openTemp folder fun reply => (next reply).bind f
  | append temp bytes next, f => append temp bytes fun reply => (next reply).bind f
  | publish temp path next, f => publish temp path fun reply => (next reply).bind f
  | discard temp next, f => discard temp (next.bind f)
  | remove path next, f => remove path fun reply => (next reply).bind f
  | note event next, f => note event (next.bind f)

instance : Monad Task where
  pure := done
  bind := bind

/-- Carries a task out on a file tree. -/
def run : Task α → StateM Disk α
  | done a => pure a
  | isDir path next => do run (next (← Disk.answer (·.isDir path)))
  | isFile path next => do run (next (← Disk.answer (·.isFile path)))
  | read path next => do run (next (← Disk.answer (·.read path)))
  | makeDirs path next => do run (next (← Disk.change (FileTree.makeDirs path)))
  | openTemp folder next => do run (next (← Disk.change (FileTree.openTemp folder)))
  | append temp bytes next => do run (next (← Disk.change (FileTree.append temp bytes)))
  | publish temp path next => do run (next (← Disk.change (FileTree.publish temp path)))
  | discard temp next => do let _ ← Disk.change (FileTree.discard temp); run next
  | remove path next => do run (next (← Disk.change (FileTree.removeFile path)))
  | note event next => do Disk.report event; run next

/-- Reports events, one after the other. -/
def notes : List Event → Task Unit
  | [] => done ()
  | event :: events => note event (notes events)

end Task

end ChipAtlas
